import MomBot.Cooperative.Interleave
import MomBot.Reminders.Scheduler

/-!
# A tick under any protocol

The same loops and branches of a tick are followed by protocols that watch different
things.  Each rule here is one function of the scheduler: what the parts keep, `I`, the
whole keeps.  Only what a part does is left to the protocol.
-/

namespace MomBot.Reminders

open Cooperative Python MemberNotifications

variable {X T : Type} {P : Protocol schedulerEffects X T} {x : X} {I : T → Prop} {stage : T}
  {date : Date} {time : Time}

/-- The slot is released only after a transient failure. -/
theorem follows_afterSend_of {deletion : SchedulerM Unit} {outcome : Outcome} (hstage : I stage)
    (hdelete : ∀ exc, outcome = .error exc → isTransient exc = true →
      deletion.Follows P x (fun _ stage => I stage) stage) :
    (afterSend deletion outcome).Follows P x (fun _ stage => I stage) stage := by
  cases outcome with
  | ok => exact hstage
  | error exc =>
      simp only [afterSend]
      split
      next htransient => exact (hdelete exc rfl htransient).bind fun _ _ h => h
      next =>
        split
        · exact hstage
        · exact hstage

theorem follows_afterFetch_of {notif : MemberNotification} {discordId : ℤ} {outcome : Outcome}
    (hsend : (sendNotification notif discordId date).Follows P x (fun _ stage => I stage) stage)
    (hstage : I stage)
    (hdelete : (unmark ⟨.memberNotification, notif.id, date⟩).Follows P x (fun _ stage => I stage)
      stage) :
    (afterFetch notif discordId date outcome).Follows P x (fun _ stage => I stage) stage := by
  cases outcome with
  | ok => exact hsend
  | error exc =>
      simp only [afterFetch]
      split
      · exact Coroutine.Follows.bind hdelete fun _ _ h => h
      · split
        · exact hstage
        · exact hstage

/-- The loop ends with the first failure. -/
theorem follows_handleReminders_of {rows : List Reminder} {expired : Bool} (hstage : I stage)
    (h : ∀ r ∈ rows, ∀ expired stage, I stage →
      (handleReminder r expired date).Follows P x (fun _ stage => I stage) stage) :
    (handleReminders date expired rows).Follows P x (fun _ stage => I stage) stage := by
  induction rows generalizing expired stage with
  | nil => exact hstage
  | cons r rest ih =>
      obtain ⟨hr, hrest⟩ := List.forall_mem_cons.mp h
      apply (hr expired stage hstage).bind
      intro result stage' hstage'
      cases result with
      | error failure => exact hstage'
      | ok => exact ih hstage' hrest

/-- The loop goes on after a failure, unless it is a cancellation. -/
theorem follows_handleNotifications_of {rows : List MemberNotification} {completed : Bool}
    (hstage : I stage)
    (h : ∀ n ∈ rows, ∀ stage, I stage →
      (handleMemberNotification n date).Follows P x (fun _ stage => I stage) stage) :
    (handleNotifications date completed rows).Follows P x (fun _ stage => I stage) stage := by
  induction rows generalizing completed stage with
  | nil => exact hstage
  | cons n rest ih =>
      obtain ⟨hn, hrest⟩ := List.forall_mem_cons.mp h
      apply (hn stage hstage).bind
      intro result stage' hstage'
      cases result with
      | ok => exact ih hstage' hrest
      | error failure =>
          simp only
          split
          · exact hstage'
          · exact ih hstage' hrest

/-- `list_due`, then the loop over what it lists. -/
theorem follows_dmBranch_of {guild : Bool} (hstage : I stage)
    (h : (listDue date time).Follows P x (fun result stage => I stage ∧
      ∀ due, result = .ok due →
        (handleNotifications date true due).Follows P x (fun _ stage => I stage) stage) stage) :
    (dmBranch guild date time).Follows P x (fun _ stage => I stage) stage := by
  cases guild with
  | false => exact hstage
  | true =>
      apply h.bind
      rintro result stage' ⟨hstage', hloop⟩
      cases result with
      | error failure => exact hstage'
      | ok due => exact hloop due rfl

theorem follows_afterSuppression_of {guild : Bool} {kept alreadySent : List Reminder}
    (hchannels : (handleReminders date false (survivors kept alreadySent)).Follows P x
      (fun _ stage => I stage) stage)
    (hdms : ∀ stage, I stage → (dmBranch guild date time).Follows P x (fun _ stage => I stage)
      stage) :
    (afterSuppression guild time date kept alreadySent).Follows P x (fun _ stage => I stage)
      stage := by
  apply hchannels.bind
  intro result stage' hstage'
  cases result with
  | error failure => exact hstage'
  | ok => exact hdms stage' hstage'

end MomBot.Reminders
