import MomBot.Cooperative.Interference
import MomBot.Reminders.Suppression

/-!
# A tick in which nothing raises

What a tick does to the logs when every send and every member lookup returns, while
the rest of the world edits the schedule tables but leaves the logs alone.  Each
function of the scheduler gets one lemma that its run is `Progressed`: rows are only
added, only for the slots it handles, and a slot that got a row was attempted.
-/

namespace MomBot.Reminders

open Cooperative Python MemberNotifications

/-- No exception from this call. -/
def Returned : (call : SchedulerCall) → call.Ans → Prop
  | .channelSend _ _ _ _, outcome | .fetchMember _ _, outcome | .memberSend _ _ _, outcome =>
      outcome = (.ok () : Outcome)
  | .getChannel _ _, _ | .getMember _ _, _ => True

/-- No call of the tick has raised anything. -/
def Healthy (trace : List (Exchange schedulerEffects)) : Prop :=
  ∀ exchange ∈ trace, Returned exchange.1 exchange.2

/-- A send for the slot was started, or its channel was not there. -/
def Attempted (slot : DaySlot) (trace : List (Exchange schedulerEffects)) : Prop :=
  (∃ exchange ∈ trace, exchange.1.slot? = some slot) ∨
    ∃ channelId, ⟨.getChannel slot channelId, false⟩ ∈ trace

theorem Healthy.nil : Healthy [] := by
  intro exchange hmem
  cases hmem

theorem Healthy.append {first second : List (Exchange schedulerEffects)}
    (h : Healthy (first ++ second)) : Healthy first ∧ Healthy second :=
  ⟨fun e he => h e (List.mem_append_left _ he), fun e he => h e (List.mem_append_right _ he)⟩

theorem Healthy.cons {exchange : Exchange schedulerEffects}
    {rest : List (Exchange schedulerEffects)} (h : Healthy (exchange :: rest)) :
    Returned exchange.1 exchange.2 ∧ Healthy rest :=
  ⟨h exchange (by simp), fun e he => h e (by simp [he])⟩

theorem Attempted.mono {slot : DaySlot} {trace trace' : List (Exchange schedulerEffects)}
    (h : Attempted slot trace) (hsub : ∀ exchange ∈ trace, exchange ∈ trace') :
    Attempted slot trace' := by
  rcases h with ⟨exchange, hmem, hslot⟩ | ⟨channelId, hmem⟩
  · exact .inl ⟨exchange, hsub _ hmem, hslot⟩
  · exact .inr ⟨channelId, hsub _ hmem⟩

/-- Meanwhile the logs stay as they are, reminders are only added, and what `I` says of the
schedules goes on to hold. -/
structure Meanwhile (I : World → Prop) (w w' : World) : Prop where
  sent : w'.sent = w.sent
  reminders : ∀ r ∈ w.reminders.rows, r ∈ w'.reminders.rows
  keeps : I w → I w'

/-- `I` is about the schedule tables only. -/
def OfSchedules (I : World → Prop) : Prop :=
  ∀ ⦃w w' : World⦄, w'.reminders = w.reminders →
    w'.memberNotifications = w.memberNotifications → I w → I w'

/-- What a part of a tick does: it adds rows, only where `claims` says, and attempts each
slot that it adds a row for, unless `exempt` says otherwise. -/
structure Progressed (I : World → Prop) (claims exempt : DaySlot → Prop) (w : World)
    (trace : List (Exchange schedulerEffects)) (w' : World) : Prop where
  keeps : I w → I w'
  kept : ∀ {slot : DaySlot}, w.Sent slot → w'.Sent slot
  only : ∀ {slot : DaySlot}, w'.Sent slot → w.Sent slot ∨ claims slot
  attempted : ∀ {slot : DaySlot}, ¬ w.Sent slot → w'.Sent slot →
    Attempted slot trace ∨ exempt slot

section Progressed

variable {I : World → Prop} {claims claims' exempt exempt' : DaySlot → Prop} {w w₁ w' : World}
  {trace trace' : List (Exchange schedulerEffects)}

theorem Meanwhile.refl : Meanwhile I w w :=
  ⟨rfl, fun _ => id, id⟩

theorem Meanwhile.trans (h : Meanwhile I w w₁) (h' : Meanwhile I w₁ w') : Meanwhile I w w' where
  sent := h'.sent.trans h.sent
  reminders r hr := h'.reminders r (h.reminders r hr)
  keeps hw := h'.keeps (h.keeps hw)

/-- A call changes no table. -/
theorem Meanwhile.awaited (hI : OfSchedules I) {call : SchedulerCall}
    (answer : schedulerEffects.Ans call) (h : Meanwhile I w w₁)
    (h' : Meanwhile I (schedulerMachine.issue call w₁) w') :
    Meanwhile I w (schedulerMachine.complete call answer w') := by
  have hissue : Meanwhile I w₁ (schedulerMachine.issue call w₁) := by
    cases call <;> exact ⟨rfl, fun _ => id, hI rfl rfl⟩
  have hcomplete : Meanwhile I w' (schedulerMachine.complete call answer w') := by
    cases call <;> exact ⟨rfl, fun _ => id, hI rfl rfl⟩
  exact ((h.trans hissue).trans h').trans hcomplete

theorem Meanwhile.progressed (h : Meanwhile I w w') : Progressed I claims exempt w trace w' where
  keeps := h.keeps
  kept := (World.sent_congr h.sent).mpr
  only hsent := .inl ((World.sent_congr h.sent).mp hsent)
  attempted hnot hsent := absurd ((World.sent_congr h.sent).mp hsent) hnot

theorem Progressed.refl : Progressed I claims exempt w trace w where
  keeps := id
  kept := id
  only := .inl
  attempted hnot hsent := absurd hsent hnot

theorem Progressed.trans (h : Progressed I claims exempt w trace w₁)
    (h' : Progressed I claims exempt w₁ trace' w') :
    Progressed I claims exempt w (trace ++ trace') w' where
  keeps hw := h'.keeps (h.keeps hw)
  kept hsent := h'.kept (h.kept hsent)
  only hsent := (h'.only hsent).elim h.only .inr
  attempted {slot} hnot hsent := by
    by_cases hmid : w₁.Sent slot
    · exact (h.attempted hnot hmid).imp_left (·.mono fun _ => List.mem_append_left _)
    · exact (h'.attempted hmid hsent).imp_left (·.mono fun _ => List.mem_append_right _)

theorem Meanwhile.then (h : Meanwhile I w w₁) (h' : Progressed I claims exempt w₁ trace w') :
    Progressed I claims exempt w trace w' :=
  have hnothing : Progressed I claims exempt w [] w₁ := h.progressed
  hnothing.trans h'

theorem Progressed.mono (h : Progressed I claims exempt w trace w')
    (hclaims : ∀ slot, claims slot → claims' slot) (hexempt : ∀ slot, exempt slot → exempt' slot) :
    Progressed I claims' exempt' w trace w' where
  keeps := h.keeps
  kept := h.kept
  only hsent := (h.only hsent).imp_right (hclaims _)
  attempted hnot hsent := (h.attempted hnot hsent).imp_right (hexempt _)

/-- The slot that a handler claims. -/
theorem Progressed.insertSent (hI : OfSchedules I) {slot : DaySlot} {w₂ : World}
    (hbefore : Meanwhile I w w₁) (hafter : Meanwhile I (w₁.insertSent slot).2 w₂)
    (hrest : Progressed I claims exempt w₂ trace w') (hslot : claims slot)
    (hattempt : (w₁.insertSent slot).1 = true → Attempted slot trace ∨ exempt slot) :
    Progressed I claims exempt w trace w' where
  keeps hw := hrest.keeps (hafter.keeps (@hI w₁ _ rfl rfl (hbefore.keeps hw)))
  kept hsent := by
    apply hrest.kept
    rw [World.sent_congr hafter.sent, World.sent_insertSent]
    exact .inl ((World.sent_congr hbefore.sent).mpr hsent)
  only {slot'} hsent := by
    rcases hrest.only hsent with hsent | hclaims
    · rw [World.sent_congr hafter.sent, World.sent_insertSent] at hsent
      rcases hsent with hsent | ⟨-, rfl⟩
      · exact .inl ((World.sent_congr hbefore.sent).mp hsent)
      · exact .inr hslot
    · exact .inr hclaims
  attempted {slot'} hnot hsent := by
    by_cases hmid : w₂.Sent slot'
    · rw [World.sent_congr hafter.sent, World.sent_insertSent] at hmid
      rcases hmid with hmid | ⟨hinserted, rfl⟩
      · exact absurd ((World.sent_congr hbefore.sent).mp hmid) hnot
      · exact hattempt hinserted
    · exact hrest.attempted hmid hsent

end Progressed

/-! ## The channel branch -/

/-- A part of a tick runs while the rest of the world keeps `I`. -/
abbrev Performs {α : Type} (I : World → Prop) (p : SchedulerM α) (w : World)
    (trace : List (Exchange schedulerEffects)) (value : α) (w' : World) : Prop :=
  p.RunsAmid schedulerMachine (Meanwhile I) w trace value w'

section Performs

variable {α : Type} {I : World → Prop} {w w' : World} {trace : List (Exchange schedulerEffects)}
  {value : α}

theorem performs_markSent {slot : DaySlot} {f : Bool → SchedulerM α} :
    Performs I (markSent slot >>= f) w trace value w' ↔ ∃ w₁, Meanwhile I w w₁ ∧
      Performs I (f (w₁.insertSent slot).1) (w₁.insertSent slot).2 trace value w' :=
  Iff.rfl

theorem performs_refresh {reminderId : ℤ} {f : Option Reminder → SchedulerM α} :
    Performs I (refresh reminderId >>= f) w trace value w' ↔ ∃ w₁, Meanwhile I w w₁ ∧
      Performs I (f (w₁.reminders.rows.find? fun r => r.id = reminderId)) w₁ trace value w' :=
  Iff.rfl

theorem performs_selectEligible {weekday : ℕ} {time : Time} {date : Date}
    {f : List Reminder → SchedulerM α} :
    Performs I (selectEligible weekday time date >>= f) w trace value w' ↔
      ∃ w₁, Meanwhile I w w₁ ∧
        Performs I (f (w₁.selectEligible weekday time date)) w₁ trace value w' :=
  Iff.rfl

theorem performs_selectSentTankEnd {weekday : ℕ} {date : Date} {loaded : List Reminder}
    {f : List Reminder → SchedulerM α} :
    Performs I (selectSentTankEnd weekday date loaded >>= f) w trace value w' ↔
      ∃ w₁, Meanwhile I w w₁ ∧
        Performs I (f (w₁.selectSentTankEnd weekday date loaded)) w₁ trace value w' :=
  Iff.rfl

theorem performs_listDue {date : Date} {time : Time}
    {f : Except Failure (List MemberNotification) → SchedulerM α} :
    Performs I (listDue date time >>= f) w trace value w' ↔ ∃ w₁, Meanwhile I w w₁ ∧
      Performs I (f (dueRows date time (w₁.selectCandidates date))) w₁ trace value w' :=
  Iff.rfl

end Performs

section Channel

variable {I : World → Prop} {exempt : DaySlot → Prop} {w w' : World} {r : Reminder} {date : Date}
  {trace : List (Exchange schedulerEffects)}

/-- A send that returns. -/
theorem attempted_of_channelSend {slot : DaySlot} {channelId : ℤ} {message : String}
    {mention : Bool} {outcome : Outcome} {rest : List (Exchange schedulerEffects)} :
    Attempted slot (⟨.channelSend slot channelId message mention, outcome⟩ :: rest) :=
  .inl ⟨_, List.mem_cons_self, rfl⟩

/-- `_handle_reminder` after its claim: the slot is attempted, and the logs are left alone. -/
theorem sendReminder_attempts (hI : OfSchedules I) {value : Except Failure Unit}
    (h : Performs I (sendReminder r date) w trace value w') (hhealthy : Healthy trace) :
    Meanwhile I w w' ∧ Attempted ⟨.reminder, r.id, date⟩ trace := by
  obtain ⟨found, rest, w₁, w₂, rfl, hfirst, hlooking, h⟩ := h
  have hlooked := hfirst.awaited hI found hlooking
  cases found with
  | false =>
      obtain ⟨-, -, rfl⟩ := h
      exact ⟨hlooked, .inr ⟨r.channelId, List.mem_cons_self⟩⟩
  | true =>
      obtain ⟨outcome, rest, w₃, w₄, rfl, hbefore, hsending, h⟩ := h
      -- a healthy send returns, so nothing is un-marked
      obtain rfl : outcome = .ok () := hhealthy.cons.2.cons.1
      obtain ⟨-, -, rfl⟩ := h
      exact ⟨(hlooked.trans hbefore).awaited hI _ hsending,
        attempted_of_channelSend.mono fun _ => List.mem_cons_of_mem _⟩

/-- The slot of `r` is claimed where its row exists, and is attempted then. -/
theorem claimReminder_progressed (hI : OfSchedules I)
    (h : Performs I (claimReminder r date) w trace (.ok ()) w') (hhealthy : Healthy trace) :
    Progressed I (· = ⟨.reminder, r.id, date⟩) exempt w trace w' ∧
      ((∀ w, I w → r.id ∈ w.owners .reminder) → I w → w'.Sent ⟨.reminder, r.id, date⟩) := by
  obtain ⟨w₁, hbefore, h⟩ := performs_markSent.mp h
  obtain ⟨w₂, hafter, h⟩ := performs_refresh.mp h
  -- the INSERT fails only where the row is there already
  have hclaimed : (∀ w, I w → r.id ∈ w.owners .reminder) → I w →
      w₂.Sent ⟨.reminder, r.id, date⟩ := by
    intro hrow hw
    rw [World.sent_congr hafter.sent, World.sent_insertSent, World.insertSent_fst]
    have howner : r.id ∈ w₁.owners .reminder := hrow w₁ (hbefore.keeps hw)
    by_cases hsent : w₁.Sent ⟨.reminder, r.id, date⟩
    · exact .inl hsent
    · exact .inr ⟨⟨howner, hsent⟩, rfl⟩
  cases hrow : w₂.reminders.rows.find? fun row => row.id = r.id with
  | none =>
      rw [hrow] at h
      exact absurd h.2.1 (by simp)
  | some row =>
      rw [hrow] at h
      have hid : row.id = r.id := by simpa using List.find?_some hrow
      cases hinserted : (w₁.insertSent ⟨.reminder, r.id, date⟩).1 with
      | false =>
          rw [hinserted] at h
          obtain ⟨-, -, rfl⟩ := h
          refine ⟨.insertSent hI hbefore hafter .refl rfl fun htrue => ?_, hclaimed⟩
          exact absurd htrue (by simp [hinserted])
      | true =>
          rw [hinserted] at h
          obtain ⟨hrest, hattempted⟩ := sendReminder_attempts hI h hhealthy
          rw [hid] at hattempted
          refine ⟨.insertSent hI hbefore hafter hrest.progressed rfl fun _ => .inl hattempted, ?_⟩
          exact fun hrow hw => (World.sent_congr hrest.sent).mpr (hclaimed hrow hw)

theorem handleReminder_progressed (hI : OfSchedules I) {expired : Bool}
    (h : Performs I (handleReminder r expired date) w trace (.ok ()) w')
    (hhealthy : Healthy trace) :
    Progressed I (· = ⟨.reminder, r.id, date⟩) exempt w trace w' ∧
      ((∀ w, I w → r.id ∈ w.owners .reminder) → I w → w'.Sent ⟨.reminder, r.id, date⟩) := by
  cases expired with
  | false => exact claimReminder_progressed hI h hhealthy
  | true =>
      obtain ⟨w₁, hbefore, h⟩ := performs_refresh.mp h
      cases hrow : w₁.reminders.rows.find? fun row => row.id = r.id with
      | none =>
          rw [hrow] at h
          exact absurd h.2.1 (by simp)
      | some row =>
          rw [hrow] at h
          have hid : row.id = r.id := by simpa using List.find?_some hrow
          obtain ⟨hprogressed, hsent⟩ := claimReminder_progressed hI h hhealthy
          rw [hid] at hprogressed hsent
          exact ⟨hbefore.then hprogressed, fun howner hw => hsent howner (hbefore.keeps hw)⟩

/-- The loop over the survivors. -/
theorem handleReminders_progressed (exempt : DaySlot → Prop) (hI : OfSchedules I)
    {rows : List Reminder} {expired : Bool}
    (h : Performs I (handleReminders date expired rows) w trace (.ok ()) w')
    (hhealthy : Healthy trace) :
    Progressed I (fun slot => ∃ r ∈ rows, slot = ⟨.reminder, r.id, date⟩) exempt w trace w' ∧
      ∀ r ∈ rows, (∀ w, I w → r.id ∈ w.owners .reminder) → I w →
        w'.Sent ⟨.reminder, r.id, date⟩ := by
  induction rows generalizing expired w trace with
  | nil =>
      obtain ⟨rfl, -, rfl⟩ := h
      exact ⟨.refl, by simp⟩
  | cons r rest ih =>
      obtain ⟨first, result, w₁, second, rfl, hfirst, hrest⟩ := h.of_bind
      obtain ⟨hhealthy₁, hhealthy₂⟩ := hhealthy.append
      cases result with
      | error failure => exact absurd hrest.2.1 (by simp)
      | ok _ =>
          obtain ⟨hprogressed₁, hsent₁⟩ := handleReminder_progressed hI hfirst hhealthy₁
          obtain ⟨hprogressed₂, hsent₂⟩ := ih hrest hhealthy₂
          constructor
          · refine (hprogressed₁.mono ?_ fun _ => id).trans (hprogressed₂.mono ?_ fun _ => id)
            · rintro slot rfl
              exact ⟨r, by simp, rfl⟩
            · rintro slot ⟨other, hother, rfl⟩
              exact ⟨other, by simp [hother], rfl⟩
          · intro other hother howner hw
            rcases List.mem_cons.mp hother with rfl | hother
            · exact hprogressed₂.kept (hsent₁ howner hw)
            · exact hsent₂ other hother howner (hprogressed₁.keeps hw)

end Channel

/-! ## The DM branch -/

section Members

variable {I : World → Prop} {w w' : World} {n : MemberNotification} {date : Date}
  {trace : List (Exchange schedulerEffects)} {value : Except Failure Unit}

/-- A DM that returns. -/
theorem sendNotification_attempts (hI : OfSchedules I) {discordId : ℤ}
    (h : Performs I (sendNotification n discordId date) w trace value w')
    (hhealthy : Healthy trace) :
    Meanwhile I w w' ∧ Attempted ⟨.memberNotification, n.id, date⟩ trace ∧ value = .ok () := by
  obtain ⟨outcome, rest, w₁, w₂, rfl, hbefore, hsending, h⟩ := h
  obtain rfl : outcome = .ok () := hhealthy.cons.1
  obtain ⟨-, rfl, rfl⟩ := h
  exact ⟨hbefore.awaited hI _ hsending, .inl ⟨_, List.mem_cons_self, rfl⟩, rfl⟩

theorem resolveMember_attempts (hI : OfSchedules I)
    (h : Performs I (resolveMember n date) w trace value w') (hhealthy : Healthy trace) :
    Meanwhile I w w' ∧
      (Attempted ⟨.memberNotification, n.id, date⟩ trace ∨ int n.targetDiscordId = none) ∧
      ∀ failure, value = .error failure → failure.isCancelled = false := by
  unfold resolveMember at h
  split at h
  next hint =>
    obtain ⟨-, rfl, rfl⟩ := h
    refine ⟨.refl, .inr hint, fun failure heq => ?_⟩
    obtain rfl := Except.error.inj heq
    rfl
  next discordId hint =>
    obtain ⟨found, rest, w₁, w₂, rfl, hfirst, hlooking, h⟩ := h
    have hlooked := hfirst.awaited hI found hlooking
    cases found with
    | true =>
        obtain ⟨hsend, hattempted, rfl⟩ := sendNotification_attempts hI h hhealthy.cons.2
        refine ⟨hlooked.trans hsend,
          .inl (hattempted.mono fun _ => List.mem_cons_of_mem _), fun _ heq => ?_⟩
        cases heq
    | false =>
        obtain ⟨outcome, rest, w₃, w₄, rfl, hbefore, hfetching, h⟩ := h
        obtain rfl : outcome = .ok () := hhealthy.cons.2.cons.1
        obtain ⟨hsend, hattempted, rfl⟩ := sendNotification_attempts hI h hhealthy.cons.2.cons.2
        refine ⟨((hlooked.trans hbefore).awaited hI _ hfetching).trans hsend,
          .inl (hattempted.mono fun _ hmem => ?_), fun _ heq => ?_⟩
        · exact List.mem_cons_of_mem _ (List.mem_cons_of_mem _ hmem)
        · cases heq

/-- The slot of a notification whose Discord id cannot be read. -/
def Unreadable (date : Date) (rows : List MemberNotification) (slot : DaySlot) : Prop :=
  ∃ n ∈ rows, int n.targetDiscordId = none ∧ slot = ⟨.memberNotification, n.id, date⟩

theorem handleMemberNotification_progressed (hI : OfSchedules I)
    (h : Performs I (handleMemberNotification n date) w trace value w')
    (hhealthy : Healthy trace) :
    Progressed I (· = ⟨.memberNotification, n.id, date⟩) (Unreadable date [n]) w trace w' ∧
      (∀ failure, value = .error failure → failure.isCancelled = false) ∧
      ((∀ w, I w → n.id ∈ w.owners .memberNotification) → I w →
        w'.Sent ⟨.memberNotification, n.id, date⟩) := by
  obtain ⟨w₁, hbefore, h⟩ := performs_markSent.mp h
  have hclaimed : (∀ w, I w → n.id ∈ w.owners .memberNotification) → I w →
      (w₁.insertSent ⟨.memberNotification, n.id, date⟩).2.Sent
        ⟨.memberNotification, n.id, date⟩ := by
    intro howner hw
    rw [World.sent_insertSent, World.insertSent_fst]
    by_cases hsent : w₁.Sent ⟨.memberNotification, n.id, date⟩
    · exact .inl hsent
    · exact .inr ⟨⟨howner w₁ (hbefore.keeps hw), hsent⟩, rfl⟩
  cases hinserted : (w₁.insertSent ⟨.memberNotification, n.id, date⟩).1 with
  | false =>
      rw [hinserted] at h
      obtain ⟨-, rfl, rfl⟩ := h
      refine ⟨.insertSent hI hbefore .refl .refl rfl fun htrue => ?_, ?_, hclaimed⟩
      · exact absurd htrue (by simp [hinserted])
      · intro _ heq
        cases heq
  | true =>
      rw [hinserted] at h
      obtain ⟨hrest, hattempted, hvalue⟩ := resolveMember_attempts hI h hhealthy
      refine ⟨.insertSent hI hbefore .refl hrest.progressed rfl fun _ => ?_, hvalue, ?_⟩
      · exact hattempted.imp_right fun hint => ⟨n, by simp, hint, rfl⟩
      · exact fun howner hw => (World.sent_congr hrest.sent).mpr (hclaimed howner hw)

/-- The loop over the due notifications.  No failure ends it. -/
theorem handleNotifications_progressed (hI : OfSchedules I) {rows : List MemberNotification}
    {completed : Bool} {value : Except Failure Bool}
    (h : Performs I (handleNotifications date completed rows) w trace value w')
    (hhealthy : Healthy trace) :
    Progressed I (fun slot => ∃ n ∈ rows, slot = ⟨.memberNotification, n.id, date⟩)
        (Unreadable date rows) w trace w' ∧
      ∀ n ∈ rows, (∀ w, I w → n.id ∈ w.owners .memberNotification) → I w →
        w'.Sent ⟨.memberNotification, n.id, date⟩ := by
  induction rows generalizing completed w trace with
  | nil =>
      obtain ⟨rfl, -, rfl⟩ := h
      exact ⟨.refl, by simp⟩
  | cons n rest ih =>
      obtain ⟨first, result, w₁, second, rfl, hfirst, hrest⟩ := h.of_bind
      obtain ⟨hhealthy₁, hhealthy₂⟩ := hhealthy.append
      obtain ⟨hprogressed₁, hvalue, hsent₁⟩ :=
        handleMemberNotification_progressed hI hfirst hhealthy₁
      have hloop : ∃ completed, Performs I (handleNotifications date completed rest) w₁ second
          value w' := by
        cases result with
        | ok _ => exact ⟨completed, hrest⟩
        | error failure =>
            simp only [hvalue failure rfl, Bool.false_eq_true, if_false] at hrest
            exact ⟨false, hrest⟩
      obtain ⟨completed', hloop⟩ := hloop
      obtain ⟨hprogressed₂, hsent₂⟩ := ih hloop hhealthy₂
      constructor
      · refine (hprogressed₁.mono ?_ ?_).trans (hprogressed₂.mono ?_ ?_)
        · rintro slot rfl
          exact ⟨n, by simp, rfl⟩
        · rintro slot ⟨other, hother, hint, rfl⟩
          exact ⟨other, by simp_all, hint, rfl⟩
        · rintro slot ⟨other, hother, rfl⟩
          exact ⟨other, by simp [hother], rfl⟩
        · rintro slot ⟨other, hother, hint, rfl⟩
          exact ⟨other, by simp [hother], hint, rfl⟩
      · intro other hother howner hw
        rcases List.mem_cons.mp hother with rfl | hother
        · exact hprogressed₂.kept (hsent₁ howner hw)
        · exact hsent₂ other hother howner (hprogressed₁.keeps hw)

end Members

/-! ## The whole tick -/

section Tick

variable {I : World → Prop} {w w' : World} {weekday : ℕ} {time : Time} {date : Date}
  {trace : List (Exchange schedulerEffects)} {kept alreadySent : List Reminder} {completed : Bool}

/-- A tick from its survivors on: first the channel loop, then the DM loop. -/
theorem afterSuppression_phases
    (h : Performs I (afterSuppression true time date kept alreadySent) w trace (.ok completed) w') :
    ∃ w₃ w₄ due first second, trace = first ++ second ∧
      Performs I (handleReminders date false (survivors kept alreadySent)) w first (.ok ()) w₃ ∧
      Meanwhile I w₃ w₄ ∧ dueRows date time (w₄.selectCandidates date) = .ok due ∧
      Performs I (handleNotifications date true due) w₄ second (.ok completed) w' := by
  obtain ⟨first, result, w₃, second, rfl, hchannel, h⟩ := h.of_bind
  cases result with
  | error failure => exact absurd h.2.1 (by simp)
  | ok _ =>
      obtain ⟨w₄, hbetween, h⟩ := performs_listDue.mp h
      cases hdue : dueRows date time (w₄.selectCandidates date) with
      | error failure =>
          rw [hdue] at h
          exact absurd h.2.1 (by simp)
      | ok due =>
          rw [hdue] at h
          exact ⟨w₃, w₄, due, first, second, rfl, hchannel, hbetween, hdue, h⟩

/-- A tick up to its survivors. -/
theorem processTick_phases
    (h : Performs I (processTick true weekday time date) w trace (.ok completed) w') :
    ∃ w₁ w₂ kept alreadySent, Meanwhile I w w₁ ∧ Meanwhile I w₁ w₂ ∧
      keptRows date (w₁.selectEligible weekday time date) = .ok kept ∧
      (∀ row ∈ alreadySent, isEndOfTankDate date = true ∧
        row ∈ w₂.selectSentTankEnd weekday date (w₁.selectEligible weekday time date)) ∧
      Performs I (afterSuppression true time date kept alreadySent) w₂ trace (.ok completed)
        w' := by
  obtain ⟨w₁, hfirst, h⟩ := performs_selectEligible.mp h
  unfold afterEligible at h
  cases hkept : keptRows date (w₁.selectEligible weekday time date) with
  | error failure =>
      rw [hkept] at h
      exact absurd h.2.1 (by simp)
  | ok kept =>
      rw [hkept] at h
      cases hend : isEndOfTankDate date with
      | true =>
          rw [hend] at h
          obtain ⟨w₂, hsecond, h⟩ := performs_selectSentTankEnd.mp h
          exact ⟨w₁, w₂, kept, _, hfirst, hsecond, hkept, fun _ hrow => ⟨rfl, hrow⟩, h⟩
      | false =>
          rw [hend] at h
          exact ⟨w₁, w₁, kept, [], hfirst, .refl, hkept, by simp, h⟩

/-- A row that nothing replaces survives. -/
theorem mem_survivors_of_unreplaced {w₁ w₂ : World} {r : Reminder} (hgrows : Meanwhile I w₁ w₂)
    (hkept : keptRows date (w₁.selectEligible weekday time date) = .ok kept)
    (halready : ∀ row ∈ alreadySent, isEndOfTankDate date = true ∧
      row ∈ w₂.selectSentTankEnd weekday date (w₁.selectEligible weekday time date))
    (hr : r ∈ w₁.selectEligible weekday time date) (hnone : r.monthCondition = none)
    (hfree : isEndOfTankDate date = true → ∀ replacing, ¬ Replaces w₂.reminders replacing r) :
    r ∈ survivors kept alreadySent := by
  have hloaded : ∀ l ∈ w₁.selectEligible weekday time date, l ∈ w₂.reminders.rows :=
    fun l hl => hgrows.reminders l (List.mem_of_mem_filter hl)
  have hholds : conditionHolds date r.monthCondition = .ok true := by rw [hnone]; rfl
  refine mem_survivors.mpr ⟨(mem_keptRows hkept).mpr ⟨hr, hholds⟩, ?_⟩
  rintro ⟨-, hslot⟩
  rcases mem_tankEndSlots.mp hslot with ⟨row, hrow, htank, hslot⟩ | ⟨row, hrow, hslot⟩
  · obtain ⟨hrow, hrowHolds⟩ := (mem_keptRows hkept).mp hrow
    rw [htank] at hrowHolds
    exact hfree (Except.ok.inj hrowHolds) row ⟨hloaded row hrow, htank, hslot⟩
  · obtain ⟨hend, hrow⟩ := halready row hrow
    exact hfree hend row (replaces_of_mem_selectSentTankEnd rfl hloaded hrow hslot).1

/-- A channel reminder or a member notification. -/
inductive Scheduled where
  | reminder (r : Reminder)
  | notification (n : MemberNotification)

namespace Scheduled

/-- Its slot on a date. -/
def slot (d : Date) : Scheduled → DaySlot
  | reminder r => ⟨.reminder, r.id, d⟩
  | notification n => ⟨.memberNotification, n.id, d⟩

/-- The time from which on it is due. -/
def fireTimeUtc : Scheduled → Time
  | reminder r => r.fireTimeUtc
  | notification n => n.fireTimeUtc

/-- It is due on the date: an unconditional reminder of that weekday, or an enabled
notification with an occurrence.  The Discord id of a notification is checked when the
row is written. -/
def DueOn (d : Date) : Scheduled → Prop
  | reminder r => r.monthCondition = none ∧ r.weekday = d.weekday
  | notification n => n.enabled = true ∧
      isOccurrenceDate n.anchorDateUtc n.cadence d = some true ∧ int n.targetDiscordId ≠ none

/-- Its row exists, and a reminder is not suppressed on the date. -/
def Kept (d : Date) : Scheduled → World → Prop
  | reminder r, w => r ∈ w.reminders.rows ∧
      (isEndOfTankDate d = true → ∀ replacing, ¬ Replaces w.reminders replacing r)
  | notification n, w => n ∈ w.memberNotifications.rows

theorem ofSchedules_kept (e : Scheduled) (d : Date) : OfSchedules (e.Kept d) := by
  intro w w' hreminders hnotifications hkept
  cases e with
  | reminder r =>
      simp only [Kept, hreminders] at *
      exact hkept
  | notification n =>
      simp only [Kept, hnotifications] at *
      exact hkept

end Scheduled

/-- What a healthy tick means for something that is due on the date `d`. -/
structure TickOutcome (e : Scheduled) (d : Date) (date : Date) (time : Time) (w : World)
    (trace : List (Exchange schedulerEffects)) (w' : World) : Prop where
  kept : w.Sent (e.slot d) → w'.Sent (e.slot d)
  dated : ¬ w.Sent (e.slot d) → w'.Sent (e.slot d) → date = d
  sent : e.Kept d w → date = d → e.fireTimeUtc.microseconds ≤ time.microseconds →
    w'.Sent (e.slot d)
  claimed : e.Kept d w → ¬ w.Sent (e.slot d) → w'.Sent (e.slot d) →
    e.fireTimeUtc.microseconds ≤ time.microseconds ∧ Attempted (e.slot d) trace

/-- The phases of a healthy tick: its first query in `w₁`, the rows that survive, and its
due list in `w₄`. -/
structure TickPhases (I : World → Prop) (date : Date) (time : Time) (w w₁ w₄ : World)
    (alive : List Reminder) (due : List MemberNotification)
    (trace : List (Exchange schedulerEffects)) (w' : World) : Prop where
  first : Meanwhile I w w₁
  keeps₄ : I w → I w₄
  /-- Only rows of the first query survive. -/
  eligible : ∀ r ∈ alive, r ∈ w₁.selectEligible date.weekday time date
  /-- A row that nothing replaces survives, whatever the table looks like by then. -/
  survives : I w → ∃ w₂, I w₂ ∧ ∀ r ∈ w₁.selectEligible date.weekday time date,
    r.monthCondition = none →
    (isEndOfTankDate date = true → ∀ replacing, ¬ Replaces w₂.reminders replacing r) → r ∈ alive
  listed : dueRows date time (w₄.selectCandidates date) = .ok due
  whole : Progressed I (fun slot => (∃ r ∈ alive, slot = ⟨.reminder, r.id, date⟩) ∨
    ∃ n ∈ due, slot = ⟨.memberNotification, n.id, date⟩) (Unreadable date due) w trace w'
  kept₁ : ∀ {slot : DaySlot}, w₁.Sent slot → w'.Sent slot
  kept₄ : ∀ {slot : DaySlot}, w₄.Sent slot → w'.Sent slot
  reminderSent : ∀ r ∈ alive, (∀ w, I w → r.id ∈ w.owners .reminder) → I w →
    w'.Sent ⟨.reminder, r.id, date⟩
  notificationSent : ∀ n ∈ due, (∀ w, I w → n.id ∈ w.owners .memberNotification) → I w →
    w'.Sent ⟨.memberNotification, n.id, date⟩

theorem exists_tickPhases (hI : OfSchedules I)
    (h : Performs I (processTick true date.weekday time date) w trace (.ok completed) w')
    (hhealthy : Healthy trace) :
    ∃ w₁ w₄ alive due, TickPhases I date time w w₁ w₄ alive due trace w' := by
  obtain ⟨w₁, w₂, kept, alreadySent, hfirst, hsecond, hkept, halready, h⟩ := processTick_phases h
  obtain ⟨w₃, w₄, due, first, second, rfl, hchannel, hbetween, hdueRows, hmembers⟩ :=
    afterSuppression_phases h
  obtain ⟨hhealthy₁, hhealthy₂⟩ := hhealthy.append
  obtain ⟨hprogressed₁, hsent₁⟩ :=
    handleReminders_progressed (Unreadable date due) hI hchannel hhealthy₁
  obtain ⟨hprogressed₂, hsent₂⟩ := handleNotifications_progressed hI hmembers hhealthy₂
  have hw₂ : I w → I w₂ := (hfirst.trans hsecond).keeps
  have hw₄ : I w → I w₄ := fun hw => hbetween.keeps (hprogressed₁.keeps (hw₂ hw))
  -- what the channel loop has sent, the DM loop keeps
  have hkept₃ : ∀ {slot : DaySlot}, w₃.Sent slot → w'.Sent slot :=
    fun hsent => hprogressed₂.kept ((World.sent_congr hbetween.sent).mpr hsent)
  exact ⟨w₁, w₄, survivors kept alreadySent, due, {
    first := hfirst
    keeps₄ := hw₄
    eligible := fun r hr => ((mem_keptRows hkept).mp (mem_survivors.mp hr).1).1
    survives := fun hw => ⟨w₂, hw₂ hw, fun r hr hnone hfree =>
      mem_survivors_of_unreplaced hsecond hkept halready hr hnone hfree⟩
    listed := hdueRows
    whole := ((hfirst.trans hsecond).then (hprogressed₁.mono (fun _ => .inl) fun _ => id)).trans
      (hbetween.then (hprogressed₂.mono (fun _ => .inr) fun _ => id))
    kept₁ := fun hsent =>
      hkept₃ (hprogressed₁.kept ((World.sent_congr hsecond.sent).mpr hsent))
    kept₄ := hprogressed₂.kept
    reminderSent := fun r hr howner hw => hkept₃ (hsent₁ r hr howner (hw₂ hw))
    notificationSent := fun n hn howner hw => hsent₂ n hn howner (hw₄ hw) }⟩

section Phases

variable {w₁ w₄ : World} {alive : List Reminder} {due : List MemberNotification} {d : Date}

/-- A new row of the tick is one of a survivor, or of a due notification. -/
theorem TickPhases.claims (h : TickPhases I date time w w₁ w₄ alive due trace w') {slot : DaySlot}
    (hnot : ¬ w.Sent slot) (hsent : w'.Sent slot) :
    (∃ r ∈ alive, slot = ⟨.reminder, r.id, date⟩) ∨
      ∃ n ∈ due, slot = ⟨.memberNotification, n.id, date⟩ :=
  (h.whole.only hsent).resolve_left hnot

theorem TickPhases.dated (h : TickPhases I date time w w₁ w₄ alive due trace w') {slot : DaySlot}
    (hnot : ¬ w.Sent slot) (hsent : w'.Sent slot) : date = slot.date := by
  rcases h.claims hnot hsent with ⟨r, -, rfl⟩ | ⟨n, -, rfl⟩
  · rfl
  · rfl

theorem reminder_outcome {r : Reminder}
    (h : TickPhases ((Scheduled.reminder r).Kept d) date time w w₁ w₄ alive due trace w')
    (hdue : (Scheduled.reminder r).DueOn d) : TickOutcome (.reminder r) d date time w trace w' := by
  obtain ⟨hnone, hweekday⟩ := hdue
  refine ⟨h.whole.kept, fun hnot hsent => h.dated hnot hsent, ?_, ?_⟩
  · rintro hw rfl htime
    by_cases hsent : w₁.Sent ⟨.reminder, r.id, date⟩
    · exact h.kept₁ hsent
    · -- the first query shows the row, and nothing replaces it
      have hr : r ∈ w₁.selectEligible date.weekday time date :=
        List.mem_filter.mpr ⟨(h.first.keeps hw).1, decide_eq_true ⟨hweekday, htime, hsent⟩⟩
      obtain ⟨w₂, hw₂, hsurvives⟩ := h.survives hw
      exact h.reminderSent r (hsurvives r hr hnone hw₂.2)
        (fun _ hkeeps => List.mem_map_of_mem hkeeps.1) hw
  · intro hw hnot hsent
    rcases h.claims hnot hsent with ⟨other, hother, heq⟩ | ⟨_, -, heq⟩
    · obtain ⟨hmem, hother⟩ := List.mem_filter.mp (h.eligible other hother)
      obtain rfl := ReminderTable.eq_of_id hmem (h.first.keeps hw).1 (DaySlot.mk.inj heq).2.1
      refine ⟨(of_decide_eq_true hother).2.1, ?_⟩
      refine (h.whole.attempted hnot hsent).resolve_right ?_
      rintro ⟨n, -, -, heq⟩
      cases heq
    · cases heq

theorem notification_outcome {n : MemberNotification}
    (h : TickPhases ((Scheduled.notification n).Kept d) date time w w₁ w₄ alive due trace w')
    (hdue : (Scheduled.notification n).DueOn d) :
    TickOutcome (.notification n) d date time w trace w' := by
  obtain ⟨henabled, hoccurs, hint⟩ := hdue
  have hrow : (Scheduled.notification n).Kept d w → ∀ other ∈ due, n.id = other.id →
      other = n := by
    intro hw other hother hid
    have hmem : other ∈ w₄.memberNotifications.rows :=
      List.mem_of_mem_filter ((mem_dueRows h.listed).mp hother).1
    exact List.inj_on_of_nodup_map w₄.memberNotifications.primaryKey hmem (h.keeps₄ hw) hid.symm
  refine ⟨h.whole.kept, fun hnot hsent => h.dated hnot hsent, ?_, ?_⟩
  · rintro hw rfl htime
    by_cases hsent : w₄.Sent ⟨.memberNotification, n.id, date⟩
    · exact h.kept₄ hsent
    · have hn : n ∈ w₄.selectCandidates date :=
        List.mem_filter.mpr ⟨h.keeps₄ hw, decide_eq_true ⟨henabled, hsent⟩⟩
      exact h.notificationSent n ((mem_dueRows h.listed).mpr ⟨hn, htime, hoccurs⟩)
        (fun _ hkeeps => List.mem_map_of_mem hkeeps) hw
  · intro hw hnot hsent
    rcases h.claims hnot hsent with ⟨_, -, heq⟩ | ⟨other, hother, heq⟩
    · cases heq
    · obtain rfl := hrow hw other hother (DaySlot.mk.inj heq).2.1
      refine ⟨((mem_dueRows h.listed).mp hother).2.1, ?_⟩
      -- only an id that is no number is not attempted
      refine (h.whole.attempted hnot hsent).resolve_right ?_
      rintro ⟨unread, hunread, hnone, heq⟩
      obtain rfl := hrow hw unread hunread (DaySlot.mk.inj heq).2.1
      exact hint hnone

end Phases

/-- **Step lemma, tick.** -/
theorem processTick_outcome {e : Scheduled} {d : Date}
    (h : Performs (e.Kept d) (processTick true date.weekday time date) w trace (.ok completed) w')
    (hhealthy : Healthy trace) (hdue : e.DueOn d) : TickOutcome e d date time w trace w' := by
  obtain ⟨w₁, w₄, alive, due, hphases⟩ := exists_tickPhases (e.ofSchedules_kept d) h hhealthy
  cases e with
  | reminder r => exact reminder_outcome hphases hdue
  | notification n => exact notification_outcome hphases hdue

end Tick

end MomBot.Reminders
