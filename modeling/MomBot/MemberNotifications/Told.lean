import MomBot.MemberNotifications.OfficerRuns

/-!
# What the user of a command is told

A command that writes calls the service once and replies.  The text that reports success is shown
only where the service has accepted what was entered, and every other text but one is shown only
where nothing was accepted.  The exception is the message for internal errors: it also follows a
call that was accepted, where the reply that should have said so did not get through
(`told_of_dialogue`).
-/

namespace MomBot.MemberNotifications

open Cooperative Coroutine Python

/-! ## Turns -/

/-- The call of the service that was accepted in a turn. -/
def acceptedOp : Turn commandEffects → Option ServiceOp
  | .op (.service o) (.ok _) => some o
  | _ => none

/-- The text that reached the user in a turn.  One whose send raises counts as unread. -/
def shownText : Turn commandEffects → Option String
  | .await (.reply call) (.ok _) => some call.content
  | _ => none

/-- The permission was read to be held. -/
def granted (userId : ℕ) : Turn commandEffects :=
  .op (.manageGuild userId) (.ok true)

variable {turns rest : List (Turn commandEffects)} {result : Except CommandError Unit}

/-- The calls of the service that it has accepted. -/
def acceptedOps (turns : List (Turn commandEffects)) : List ServiceOp :=
  turns.filterMap acceptedOp

/-- The texts that the user has read. -/
def shownTexts (turns : List (Turn commandEffects)) : List String :=
  turns.filterMap shownText

theorem acceptedOps_cons (turn : Turn commandEffects) :
    acceptedOps (turn :: rest) = (acceptedOp turn).toList ++ acceptedOps rest := by
  unfold acceptedOps
  rw [List.filterMap_cons]
  cases acceptedOp turn <;> rfl

theorem shownTexts_cons (turn : Turn commandEffects) :
    shownTexts (turn :: rest) = (shownText turn).toList ++ shownTexts rest := by
  unfold shownTexts
  rw [List.filterMap_cons]
  cases shownText turn <;> rfl

/-! ## Texts -/

/-- The text that reports success. -/
def Command.doneText : Command → Option String
  | add given => some (createdText given.name given.member.id)
  | update given => some (updatedText given.name)
  | remove name => some (removedText name)
  | list | get _ => none

/-- The third letter tells a success text from all others. -/
theorem Command.third_doneText {command : Command} {text : String}
    (h : command.doneText = some text) : text.toList[2]? = some 't' := by
  cases command with
  | add given =>
      obtain rfl := Option.some.inj h
      unfold createdText
      rw [String.toList_append, String.toList_append, String.toList_append, String.toList_append]
      rfl
  | update given =>
      obtain rfl := Option.some.inj h
      unfold updatedText
      rw [String.toList_append, String.toList_append]
      rfl
  | remove name =>
      obtain rfl := Option.some.inj h
      unfold removedText
      rw [String.toList_append, String.toList_append]
      rfl
  | list => cases h
  | get name => cases h

theorem Command.ne_doneText {command : Command} {text : String} (h : text.toList[2]? ≠ some 't') :
    command.doneText ≠ some text :=
  fun hdone => h (third_doneText hdone)

/-! ## What a command comes to -/

/-- What was accepted of the command `command`, and what its user has read. -/
inductive Told (command : Command) : List ServiceOp → List String → Prop
  | done {o : ServiceOp} {text : String} : (CommandOp.service o).Of command →
      command.doneText = some text → Told command [o] [text]
  /-- The service did its work, but the reply did not get through. -/
  | failed {o : ServiceOp} : (CommandOp.service o).Of command → Told command [o] [opsErrorMsg]
  | unheard {o : ServiceOp} : (CommandOp.service o).Of command → Told command [o] []
  | refused {text : String} : command.doneText ≠ some text → Told command [] [text]
  | silent : Told command [] []

variable {command : Command}

/-- A turn before everything else that neither changes anything nor shows anything. -/
theorem Told.cons {turn : Turn commandEffects} (hop : acceptedOp turn = none)
    (htext : shownText turn = none) (h : Told command (acceptedOps rest) (shownTexts rest)) :
    Told command (acceptedOps (turn :: rest)) (shownTexts (turn :: rest)) := by
  rw [acceptedOps_cons, shownTexts_cons, hop, htext]
  exact h

/-- A reply is the end, whether it gets through or not. -/
theorem reply_cases {content : String} (h : (reply content).run.Dialogue turns result) :
    acceptedOps turns = [] ∧ (shownTexts turns = [content] ∨ shownTexts turns = []) := by
  obtain ⟨answer, _, rfl, rfl, -⟩ := h
  cases answer with
  | ok _ => exact ⟨rfl, .inl rfl⟩
  | error exc => exact ⟨rfl, .inr rfl⟩

theorem told_reply {content : String} (hcontent : content.toList[2]? ≠ some 't')
    (h : (reply content).run.Dialogue turns result) :
    Told command (acceptedOps turns) (shownTexts turns) := by
  obtain ⟨hops, htexts⟩ := reply_cases h
  rw [hops]
  rcases htexts with htexts | htexts
  · rw [htexts]
    exact .refused (Command.ne_doneText hcontent)
  · rw [htexts]
    exact .silent

theorem third_opsErrorMsg : opsErrorMsg.toList[2]? ≠ some 't' := by
  decide +kernel

theorem third_alreadyExistsText (name : String) :
    (alreadyExistsText name).toList[2]? ≠ some 't' := by
  have hthird : (alreadyExistsText name).toList[2]? = some 'n' := by
    unfold alreadyExistsText
    rw [String.toList_append, String.toList_append]
    rfl
  rw [hthird]
  decide

theorem third_notFoundText (name : String) : (notFoundText name).toList[2]? ≠ some 't' := by
  have hthird : (notFoundText name).toList[2]? = some ' ' := by
    unfold notFoundText
    rw [String.toList_append, String.toList_append]
    rfl
  rw [hthird]
  decide

/-- The reply to an exception. -/
theorem excepted_cases {expected : CommandError → Bool} {otherwise : String} {exc : CommandError}
    (h : (if expected exc then reply otherwise
      else if exc.isException then reply opsErrorMsg else throw exc).run.Dialogue turns result) :
    acceptedOps turns = [] ∧ (shownTexts turns = [] ∨ shownTexts turns = [opsErrorMsg] ∨
      expected exc = true ∧ shownTexts turns = [otherwise]) := by
  split at h
  next hexpected =>
    obtain ⟨hops, htexts | htexts⟩ := reply_cases h
    · exact ⟨hops, .inr (.inr ⟨hexpected, htexts⟩)⟩
    · exact ⟨hops, .inl htexts⟩
  next =>
    split at h
    next =>
      obtain ⟨hops, htexts | htexts⟩ := reply_cases h
      · exact ⟨hops, .inr (.inl htexts)⟩
      · exact ⟨hops, .inl htexts⟩
    next =>
      obtain ⟨rfl, -⟩ := h
      exact ⟨rfl, .inl rfl⟩

/-- A call of the service with its reply. -/
theorem told_concluding {o : ServiceOp} {done otherwise : String} {expected : CommandError → Bool}
    (hop : (CommandOp.service o).Of command) (hdone : command.doneText = some done)
    (hotherwise : otherwise.toList[2]? ≠ some 't')
    (hexpected : ∀ exc, expected (.raised exc) = false)
    (h : (concluding o done expected otherwise).run.Dialogue turns result) :
    Told command (acceptedOps turns) (shownTexts turns) := by
  obtain ⟨answer, rest, rfl, h⟩ := h
  cases answer with
  | error exc =>
      -- nothing was accepted
      obtain ⟨hops, htexts⟩ := excepted_cases h
      refine .cons rfl rfl ?_
      rw [hops]
      rcases htexts with htexts | htexts | ⟨-, htexts⟩
      · rw [htexts]
        exact .silent
      · rw [htexts]
        exact .refused (Command.ne_doneText third_opsErrorMsg)
      · rw [htexts]
        exact .refused (Command.ne_doneText hotherwise)
  | ok _ =>
      obtain ⟨outcome, last, rfl, h⟩ := h
      rw [acceptedOps_cons, shownTexts_cons, acceptedOps_cons, shownTexts_cons]
      cases outcome with
      | ok _ =>
          obtain ⟨rfl, -⟩ := h
          exact .done hop hdone
      | error exc =>
          -- the first reply did not get through
          obtain ⟨hops, htexts⟩ := excepted_cases h
          rw [hops]
          rcases htexts with htexts | htexts | ⟨htaken, -⟩
          · rw [htexts]
            exact .unheard hop
          · rw [htexts]
            exact .failed hop
          · rw [hexpected exc] at htaken
            cases htaken

/-! ## The handlers -/

theorem told_memberNotifyAdd {given : AddParameters}
    (h : (memberNotifyAdd given).run.Dialogue turns result) :
    Told (.add given) (acceptedOps turns) (shownTexts turns) := by
  unfold memberNotifyAdd at h
  split at h
  next => exact told_reply (by decide +kernel) h
  next parsedDate hdate =>
    split at h
    next => exact told_reply (by decide +kernel) h
    next parsedTime htime =>
      split at h
      next => exact told_reply (by decide +kernel) h
      next hcadence =>
        have hop : (CommandOp.service (.create given.name (toString given.member.id) parsedDate
            parsedTime given.cadence given.message)).Of (.add given) :=
          ⟨rfl, rfl, hdate, htime, rfl, not_not.mp hcadence, rfl⟩
        exact told_concluding hop rfl (third_alreadyExistsText given.name) (fun _ => rfl) h

theorem eq_of_parsed {α : Type} {parse : String → Option α} {message message' : String}
    {text : Option String} (h : parsed parse message text = .error message') :
    message' = message := by
  unfold parsed at h
  split at h
  next => cases h
  next =>
    split at h
    next => exact (Except.error.inj h).symm
    next => cases h

/-- The replies to a text that is not in order. -/
theorem eq_of_updatedFields {given : UpdateParameters} {message : String}
    (h : updatedFields given = .error message) :
    message = invalidDateMsg ∨ message = invalidTimeMsg ∨ message = invalidCadenceMsg := by
  rcases bind_eq_error_iff.mp h with hdate | ⟨_, -, h⟩
  · exact .inl (eq_of_parsed hdate)
  rcases bind_eq_error_iff.mp h with htime | ⟨_, -, h⟩
  · exact .inr (.inl (eq_of_parsed htime))
  rcases bind_eq_error_iff.mp h with hcadence | ⟨_, -, h⟩
  · exact .inr (.inr (eq_of_parsed hcadence))
  · cases h

theorem told_memberNotifyUpdate {given : UpdateParameters}
    (h : (memberNotifyUpdate given).run.Dialogue turns result) :
    Told (.update given) (acceptedOps turns) (shownTexts turns) := by
  unfold memberNotifyUpdate at h
  split at h
  next message hmessage =>
    refine told_reply ?_ h
    rcases eq_of_updatedFields hmessage with rfl | rfl | rfl
    · decide +kernel
    · decide +kernel
    · decide +kernel
  next fields hfields =>
    have hop : (CommandOp.service (.update given.name fields)).Of (.update given) := ⟨rfl, hfields⟩
    exact told_concluding hop rfl (third_notFoundText given.name) (fun _ => rfl) h

theorem told_memberNotifyRemove {name : String}
    (h : (memberNotifyRemove name).run.Dialogue turns result) :
    Told (.remove name) (acceptedOps turns) (shownTexts turns) := by
  have hop : (CommandOp.service (.delete name)).Of (.remove name) := rfl
  exact told_concluding hop rfl (third_notFoundText name) (fun _ => rfl) h

/-! ## The commands that read -/

theorem told_of_texts (hreads : command.doneText = none) (hops : acceptedOps turns = [])
    (htexts : shownTexts turns = [] ∨ ∃ text, shownTexts turns = [text]) :
    Told command (acceptedOps turns) (shownTexts turns) := by
  rw [hops]
  rcases htexts with htexts | ⟨text, htexts⟩
  · rw [htexts]
    exact .silent
  · rw [htexts]
    exact .refused (by simp [hreads])

/-- The error message of a query or a reply that failed. -/
theorem told_failed (hreads : command.doneText = none) (exc : Raised)
    (h : (reading (catching Raised.isException (throw exc)
      fun _ => followupSend opsErrorMsg)).run.Dialogue turns result) :
    Told command (acceptedOps turns) (shownTexts turns) := by
  have hhandler : ((if exc.isException then followupSend opsErrorMsg
    else throw exc : ReplyM Unit).run.embed queries >>= _).Dialogue turns result := h
  split at hhandler
  next =>
    obtain ⟨outcome, _, rfl, rfl, -⟩ := hhandler
    cases outcome with
    | ok _ => exact told_of_texts hreads rfl (.inr ⟨_, rfl⟩)
    | error exc => exact told_of_texts hreads rfl (.inl rfl)
  next =>
    obtain ⟨rfl, -⟩ := hhandler
    exact told_of_texts hreads rfl (.inl rfl)

theorem told_replying (hreads : command.doneText = none) (content : String)
    (h : (reading (catching Raised.isException (followupSend content)
      fun _ => followupSend opsErrorMsg)).run.Dialogue turns result) :
    Told command (acceptedOps turns) (shownTexts turns) := by
  obtain ⟨outcome, rest, rfl, h⟩ := h
  cases outcome with
  | ok _ =>
      obtain ⟨rfl, -⟩ := h
      exact told_of_texts hreads rfl (.inr ⟨content, rfl⟩)
  | error exc => exact .cons rfl rfl (told_failed hreads exc h)

theorem told_reading (h : (reading memberNotifyList).run.Dialogue turns result) :
    Told .list (acceptedOps turns) (shownTexts turns) := by
  obtain ⟨answer, rest, rfl, h⟩ := h
  cases answer with
  | error exc => exact .cons rfl rfl (told_failed rfl exc h)
  | ok rows => exact .cons rfl rfl (told_replying rfl (listReply rows) h)

theorem told_readingNamed {name : String}
    (h : (reading (memberNotifyGet name)).run.Dialogue turns result) :
    Told (.get name) (acceptedOps turns) (shownTexts turns) := by
  obtain ⟨answer, rest, rfl, h⟩ := h
  cases answer with
  | error exc => exact .cons rfl rfl (told_failed rfl exc h)
  | ok row => exact .cons rfl rfl (told_replying rfl (getReply name row) h)

/-! ## The whole command -/

theorem Command.told (h : command.handler.run.Dialogue turns result) :
    Told command (acceptedOps turns) (shownTexts turns) := by
  cases command with
  | add given => exact told_memberNotifyAdd h
  | update given => exact told_memberNotifyUpdate h
  | remove name => exact told_memberNotifyRemove h
  | list => exact told_reading h
  | get name => exact told_readingNamed h

/-- Whatever Discord and the database answer, the user has read at most one text, and the success
text only after the one call of the service was accepted.  Where the permission was not read to be
held, nothing was accepted. -/
theorem told_of_dialogue {x : Invocation} (h : x.program.run.Dialogue turns result) :
    Told x.command (acceptedOps turns) (shownTexts turns) ∧
      (acceptedOps turns ≠ [] → granted x.userId ∈ turns) := by
  obtain ⟨outcome, rest, rfl, h⟩ := h
  cases outcome with
  | error exc =>
      obtain ⟨rfl, -⟩ := h
      exact ⟨.silent, fun hsome => absurd rfl hsome⟩
  | ok _ =>
      obtain ⟨answer, rest, rfl, h⟩ := h
      match answer with
      | .error exc =>
          obtain ⟨rfl, -⟩ := h
          exact ⟨.silent, fun hsome => absurd rfl hsome⟩
      | .ok false =>
          have hreply : (reply officersOnlyMsg).run.Dialogue rest result := h
          refine ⟨.cons rfl rfl (.cons rfl rfl (told_reply (by decide +kernel) hreply)), ?_⟩
          intro hsome
          exact absurd (reply_cases hreply).1 hsome
      | .ok true =>
          refine ⟨.cons rfl rfl (.cons rfl rfl (x.command.told h)), fun _ => ?_⟩
          exact List.mem_cons_of_mem _ List.mem_cons_self

/-! ### A reply that fails -/

/-- The notification is there, but the reply that says so does not get through. -/
def unreplied : List (Turn commandEffects) :=
  [.await .defer (.ok ()), .op (.manageGuild 8) (.ok true),
    .op (.service (.delete "gym")) (.ok ()),
    .await (.reply (.followupSend (removedText "gym"))) (.error (.httpException 500)),
    .await (.reply (.followupSend opsErrorMsg)) (.ok ())]

theorem told_of_dialogue_removeGym : Told removeGym.command [.delete "gym"] [opsErrorMsg] ∧
    granted removeGym.userId ∈ unreplied := by
  have hdialogue : removeGym.program.run.Dialogue unreplied (.ok ()) :=
    ⟨_, _, rfl, _, _, rfl, _, _, rfl, _, _, rfl, _, _, rfl, rfl, rfl⟩
  obtain ⟨htold, hpermitted⟩ := told_of_dialogue hdialogue
  exact ⟨htold, hpermitted (List.cons_ne_nil _ _)⟩

end MomBot.MemberNotifications
