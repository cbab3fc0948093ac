import MomBot.Cooperative.Raising
import MomBot.NewMemberAlerts.MemberJoin
import MomBot.NewMemberAlerts.Service

/-!
# The command and the join, side by side

`/notify-new-members` writes the table of subscriptions, and `on_member_join` reads it.  Both run as
tasks of one process and switch where they await.  A `Stage` says what a task has found out so far:
the permission that the gate has just read, the list that the join has loaded, and the officer whom
it has just looked up.
-/

namespace MomBot.NewMemberAlerts

open Cooperative Coroutine Python
open SubscriptionTable (Toggle)

/-! ## Texts -/

/-- `_INVALID_STATE_MSG`. -/
def invalidStateMsg : String := "Invalid state — choose 'on' or 'off'."

/-- `_OPS_ERROR_MSG`. -/
def opsErrorMsg : String := "An internal error occurred. Please try again later."

/-- The reply to a command that was taken. -/
def toggledText (state : String) : String := "New-member alerts are now " ++ state ++ "."

/-! ## Effects -/

/-- `manageGuild` is what `guild_permissions` says of the invoker of a command. -/
inductive AlertOp where
  | join (o : JoinOp)
  | manageGuild (userId : ℕ)
  | setSubscription (command : Toggle)

/-- A join is answered as in `MemberJoin.lean`; the permission and the table may raise. -/
def AlertOp.Res : AlertOp → Type
  | join o => o.Res
  -- the invoker of a command outside a guild has no `guild_permissions`
  | manageGuild _ => Except Raised Bool
  | setSubscription _ => Except Raised Unit

/-- The calls of Discord, of a join and of the command. -/
inductive AlertCall where
  | join (call : JoinCall)
  | defer
  | followupSend (content : String)
  deriving DecidableEq, Repr

/-- The command's own calls are answered by an outcome. -/
def AlertCall.Ans : AlertCall → Type
  | join call => call.Ans
  | defer | followupSend _ => Outcome

/-- Everything that the command and a join ask. -/
abbrev alertEffects : Effects := ⟨AlertOp, AlertOp.Res, AlertCall, AlertCall.Ans⟩

/-- The command or a join, or a part of one. -/
abbrev AlertM := ExceptT Raised (Coroutine alertEffects)

/-- `on_member_join`, among the commands. -/
def joins : Embedding joinEffects alertEffects where
  op := .join
  res _ r := r
  call := .join
  ans _ a := a

/-- `interaction.response.defer(ephemeral=True)`. -/
def defer : AlertM Unit := ExceptT.mk (request (E := alertEffects) .defer)

/-- `interaction.followup.send(content, ephemeral=True)`. -/
def followupSend (content : String) : AlertM Unit :=
  ExceptT.mk (request (E := alertEffects) (.followupSend content))

/-- `interaction.user.guild_permissions.manage_guild`. -/
def manageGuild (userId : ℕ) : AlertM Bool :=
  ExceptT.mk (perform (E := alertEffects) (.manageGuild userId))

/-- `service.set_subscription`. -/
def setSubscription (command : Toggle) : AlertM Unit :=
  ExceptT.mk (perform (E := alertEffects) (.setSubscription command))

/-! ## Programs -/

/-- The parameters of `/notify-new-members`, with its invoker and the guild it came from. -/
structure NotifyParameters where
  guildId : ℤ
  userId : ℕ
  userId_lt : userId < 2 ^ 64
  state : String

/-- What the service is called with. -/
def NotifyParameters.toggle (given : NotifyParameters) : Toggle :=
  ⟨given.guildId, given.userId, given.userId_lt, given.state = "on"⟩

/-- The states that the command takes. -/
def validStates : List String := ["on", "off"]

/-- `notify_new_members`, behind its gate. -/
def notifyNewMembers (given : NotifyParameters) : AlertM Unit :=
  if given.state ∈ validStates then
    catching Raised.isException
      (do
        setSubscription given.toggle
        followupSend (toggledText given.state))
      fun _ => followupSend opsErrorMsg
  else followupSend invalidStateMsg

/-- The interaction of a command, as its gate uses it. -/
def interaction (userId : ℕ) : Interaction AlertM where
  defer := defer
  manageGuild := manageGuild userId
  followupSend := followupSend

/-- What a task is started with. -/
inductive AlertTask where
  | command (given : NotifyParameters)
  | join (member : JoinedMember)

/-- The command behind its gate, or the listener. -/
def AlertTask.program (bot : Bot) : AlertTask → AlertM Unit
  | command given => requireManageGuild (interaction given.userId) (notifyNewMembers given)
  | join member => ExceptT.mk ((onMemberJoin bot member).run.embed joins)

/-! ## What the tasks share -/

/-- The table, and what the tasks look up besides. -/
structure AlertOffice where
  table : SubscriptionTable
  /-- The commands that the table has taken, in order. -/
  commands : List Toggle
  databaseAnswers : Bool
  /-- `guild_permissions.manage_guild` of the invoker of a command. -/
  invoker : ℕ → Option Bool
  /-- The guild's cache. -/
  members : ℤ → Option Officer
  /-- What the clock, the secrets, the channels and the other tables answer. -/
  answers : (o : JoinOp) → o.Res

namespace AlertOffice

variable (w : AlertOffice)

/-- The permission as the gate reads it. -/
def permission (userId : ℕ) : Except Raised Bool :=
  match w.invoker userId with
  | some held => .ok held
  | none => .error .unexpected

/-- What a join is answered. -/
def ask : (o : JoinOp) → o.Res
  | .listSubscriberIds guildId =>
      if w.databaseAnswers then .ok (w.table.listSubscriberIds guildId) else .error .unexpected
  | .getMember userId => w.members userId
  | o => w.answers o

/-- A database that does not answer leaves the table. -/
def take (command : Toggle) : Except Raised Unit × AlertOffice :=
  if w.databaseAnswers then
    (.ok (), { w with
      table := w.table.toggle command
      commands := w.commands ++ [command] })
  else (.error .unexpected, w)

/-- The gate and the join look, and the command writes. -/
def exec : (o : AlertOp) → AlertOffice → o.Res × AlertOffice
  | .join o, w => (w.ask o, w)
  | .manageGuild userId, w => (w.permission userId, w)
  | .setSubscription command, w => w.take command

/-- Members, permissions and everything outside change at will; only the command writes the
table. -/
def Elsewhere (w w' : AlertOffice) : Prop :=
  w'.table = w.table ∧ w'.commands = w.commands

end AlertOffice

/-- Any commands and joins. -/
def alerts (bot : Bot) : Concurrent alertEffects AlertOffice AlertTask (Except Raised Unit) where
  machine := { exec := AlertOffice.exec, issue := fun _ w => w, complete := fun _ _ w => w }
  program x := (x.program bot).run
  outside := AlertOffice.Elsewhere

/-! ## Stages -/

/-- What a task has found out and may still count on. -/
structure Stage where
  /-- The invoker whose permission the gate has just read. -/
  granted : Option ℕ
  /-- A guild and the officers that were listed for it. -/
  listed : Option (String × List String)
  /-- The officer whom the guild's cache has just shown to hold the permission. -/
  cleared : Option ℤ

namespace Stage

/-- Nothing was looked up yet. -/
def fresh : Stage := ⟨none, none, none⟩

/-- Whatever was looked up may have changed after an await. -/
def awaited (t : Stage) : Stage := ⟨none, t.listed, none⟩

/-- The list of the subscribers, or an officer in the cache, was looked up. -/
def afterJoinOp (t : Stage) : (o : JoinOp) → o.Res → Stage
  | .listSubscriberIds guildId, .ok userIds => { t with listed := some (guildId, userIds) }
  | .getMember userId, some ⟨true⟩ => { t with cleared := some userId }
  | .getMember _, _ => { t with cleared := none }
  | _, _ => t

/-- A permission that was read to be held is one to count on. -/
def afterOp (t : Stage) : (o : AlertOp) → o.Res → Stage
  | .join o, r => t.afterJoinOp o r
  | .manageGuild userId, .ok true => { t with granted := some userId }
  | _, _ => t

end Stage

/-- The join is one that is announced. -/
def Announces (bot : Bot) (member : JoinedMember) : Prop :=
  member.bot = false ∧ bot.guildId = some member.guildId

/-- The list is asked for the member's own guild. -/
def MayAsk (bot : Bot) (member : JoinedMember) : JoinOp → Prop
  | .listSubscriberIds guildId => Announces bot member ∧ guildId = toString member.guildId
  | _ => True

/-- An officer is written to who is listed, and has just been found to hold the permission. -/
def MayAwait (bot : Bot) (member : JoinedMember) (t : Stage) : JoinCall → Prop
  | .memberSend id content =>
      Announces bot member ∧ content = alertText member ∧ t.cleared = some id ∧
        ∃ userIds, t.listed = some (toString member.guildId, userIds) ∧
          ∃ userId ∈ userIds, int userId = some id
  | .fetchChannel _ | .channelSend _ _ => True

/-- A join lists the subscribers and writes to officers whom it has just looked up. -/
def joining (bot : Bot) : Protocol joinEffects JoinedMember Stage where
  rest := .fresh
  start _ := .fresh
  opOk member _ := MayAsk bot member
  gives _ _ _ := True
  afterOp := Stage.afterJoinOp
  callOk := MayAwait bot
  atCall t _ := t.awaited
  afterCall t _ _ := t.awaited

/-- A subscription is set by whoever has just been found to hold the permission, as he entered
it. -/
def TaskMayAsk (bot : Bot) : AlertTask → Stage → AlertOp → Prop
  | .join member, _, .join o => MayAsk bot member o
  | .command given, _, .manageGuild userId => userId = given.userId
  | .command given, t, .setSubscription command =>
      t.granted = some given.userId ∧ command = given.toggle ∧ given.state ∈ validStates
  | _, _, _ => False

/-- The command only defers and replies. -/
def TaskMayAwait (bot : Bot) : AlertTask → Stage → AlertCall → Prop
  | .join member, t, .join call => MayAwait bot member t call
  | .command _, _, .defer | .command _, _, .followupSend _ => True
  | _, _, _ => False

/-- The command sets a subscription behind its gate, and a join is a join. -/
def alerting (bot : Bot) : Protocol alertEffects AlertTask Stage where
  rest := .fresh
  start _ := .fresh
  opOk := TaskMayAsk bot
  gives _ _ _ := True
  afterOp := Stage.afterOp
  callOk := TaskMayAwait bot
  atCall t _ := t.awaited
  afterCall t _ _ := t.awaited

/-! ## The programs keep to the stages -/

section Follows

variable {α : Type} {bot : Bot} {member : JoinedMember} {given : NotifyParameters} {t : Stage}

/-- Nothing is asked of the end. -/
abbrev Ends (_ : α) (_ : Stage) : Prop := True

/-! ### The join -/

theorem follows_requireSessionFactory :
    (requireSessionFactory bot).run.Follows (joining bot) member Ends t := by
  unfold requireSessionFactory
  split
  next => exact follows_pure trivial
  next => exact follows_throw trivial

theorem follows_intOrRaise (text : String) :
    (intOrRaise text).run.Follows (joining bot) member
      (fun result t' => t' = t ∧ ∀ id, result = .ok id → int text = some id) t := by
  unfold intOrRaise
  split
  next n hn => exact follows_pure ⟨rfl, fun id hid => hn.trans (congrArg some (Except.ok.inj hid))⟩
  next => exact follows_throw ⟨rfl, fun _ hid => by cases hid⟩

theorem follows_recordStage : (recordStage bot member).run.Follows (joining bot) member Ends t := by
  have hbody : (do
      requireSessionFactory bot
      let joinedAt ← utcNow
      recordJoin member.guildId member.id joinedAt : JoinM Unit).run.Follows (joining bot) member
        Ends t :=
    follows_requireSessionFactory.bind_raising
      (fun _ _ _ => ⟨trivial, fun _ _ => ⟨trivial, fun _ _ => trivial⟩⟩) fun _ _ _ => trivial
  exact hbody.catching (fun _ _ _ => trivial) (fun _ _ _ => follows_pure trivial)
    fun _ _ _ => trivial

theorem follows_welcomeChannelId :
    (welcomeChannelId).run.Follows (joining bot) member Ends t := by
  have hload : (loadSecret channelSecret).run.Follows (joining bot) member Ends t :=
    ⟨trivial, fun _ _ => trivial⟩
  have hbody : (do
      let text ← loadSecret channelSecret
      let channelId ← intOrRaise text
      return some channelId : JoinM (Option ℤ)).run.Follows (joining bot) member Ends t :=
    hload.bind_raising
      (fun text _ _ => (follows_intOrRaise text).bind_raising (fun _ _ _ => follows_pure trivial)
        fun _ _ _ => trivial) fun _ _ _ => trivial
  exact hbody.catching (fun _ _ _ => trivial) (fun _ _ _ => follows_pure trivial)
    fun _ _ _ => trivial

theorem follows_resolveChannel (channelId : ℤ) :
    (resolveChannel channelId).run.Follows (joining bot) member Ends t := by
  refine ⟨trivial, fun found _ => ?_⟩
  cases found with
  | some channel => exact follows_pure trivial
  | none =>
      refine ⟨trivial, fun answer => ?_⟩
      cases answer with
      | ok channel => exact follows_pure trivial
      | error exc =>
          show (if exc.isHttpException then pure none else throw exc :
            JoinM (Option Channel)).run.Follows (joining bot) member Ends _
          split
          next => exact follows_pure trivial
          next => exact follows_throw trivial

theorem follows_sendToChannel (channel : Channel) :
    (sendToChannel member channel).run.Follows (joining bot) member Ends t := by
  unfold sendToChannel
  split
  next =>
    have hsend : (channelSend channel.id (welcomeText member)).run.Follows (joining bot) member
        Ends t := ⟨trivial, fun _ => trivial⟩
    exact hsend.catching (fun _ _ _ => trivial) (fun _ _ _ => follows_pure trivial)
      fun _ _ _ => trivial
  next => exact follows_pure trivial

theorem follows_sendWelcomeMessage :
    (sendWelcomeMessage member).run.Follows (joining bot) member Ends t := by
  refine follows_welcomeChannelId.bind_raising (fun channelId t' _ => ?_) fun _ _ _ => trivial
  cases channelId with
  | none => exact follows_pure trivial
  | some channelId =>
      refine (follows_resolveChannel channelId).bind_raising (fun channel t' _ => ?_)
        fun _ _ _ => trivial
      cases channel with
      | none => exact follows_pure trivial
      | some channel => exact follows_sendToChannel channel

/-- The officers that a query came to are those of the stage. -/
def Queried (guildId : ℤ) (result : Except Raised (Option (List String))) (t : Stage) : Prop :=
  ∀ userIds, result = .ok (some userIds) → t.listed = some (toString guildId, userIds)

theorem queried_error {guildId : ℤ} (exc : Raised) : Queried guildId (.error exc) t := by
  intro userIds h
  cases h

theorem follows_querySubscribers (hannounces : Announces bot member) :
    (querySubscribers bot member.guildId).run.Follows (joining bot) member
      (Queried member.guildId) t := by
  have hlist (t : Stage) : (listSubscriberIds (toString member.guildId)).run.Follows (joining bot)
      member
      (fun result t' => ∀ userIds, result = .ok userIds →
        t'.listed = some (toString member.guildId, userIds)) t := by
    refine ⟨⟨hannounces, rfl⟩, fun answer _ userIds hanswer => ?_⟩
    subst hanswer
    rfl
  have hfound (t : Stage) : (do
      let subscriberIds ← listSubscriberIds (toString member.guildId)
      return some subscriberIds : JoinM (Option (List String))).run.Follows (joining bot) member
        (Queried member.guildId) t := by
    refine (hlist t).bind_raising (fun userIds t' hlisted => follows_pure ?_) fun exc _ _ =>
      queried_error exc
    intro userIds' hreturned
    obtain rfl : userIds = userIds' := by simpa using hreturned
    exact hlisted userIds rfl
  have hbody : (do
      requireSessionFactory bot
      let subscriberIds ← listSubscriberIds (toString member.guildId)
      return some subscriberIds : JoinM (Option (List String))).run.Follows (joining bot) member
        (Queried member.guildId) t :=
    follows_requireSessionFactory.bind_raising (fun _ t' _ => hfound t') fun exc _ _ =>
      queried_error exc
  refine hbody.catching (fun _ _ h => h) (fun _ _ _ => ?_) fun exc _ _ => queried_error exc
  exact follows_pure fun _ h => by cases h

variable {userIds : List String}

/-- The list of the join is known. -/
abbrev Holds (member : JoinedMember) (userIds : List String) (_ : α) (t : Stage) : Prop :=
  t.listed = some (toString member.guildId, userIds)

theorem follows_alertOfficer {userId : String} (hannounces : Announces bot member)
    (huserId : userId ∈ userIds) (hlisted : t.listed = some (toString member.guildId, userIds)) :
    (alertOfficer member userId).run.Follows (joining bot) member (Holds member userIds) t := by
  refine (follows_intOrRaise userId).bind_raising (fun id t' hid => ?_) fun _ _ hraised => ?_
  · obtain ⟨rfl, hid⟩ := hid
    refine ⟨trivial, fun officer _ => ?_⟩
    cases officer with
    | none => exact hlisted
    | some officer =>
        obtain ⟨held⟩ := officer
        cases held with
        | false => exact hlisted
        | true =>
            have hsend : (memberSend id (alertText member)).run.Follows (joining bot) member
                (Holds member userIds) { t' with cleared := some id } :=
              ⟨⟨hannounces, rfl, rfl, userIds, hlisted, userId, huserId, hid id rfl⟩,
                fun _ => hlisted⟩
            exact hsend.catching (fun _ _ h => h) (fun _ _ h => follows_pure h) fun _ _ h => h
  · rw [hraised.1]
    exact hlisted

theorem follows_alertOfficers (hannounces : Announces bot member) {rest : List String}
    (hrest : ∀ userId ∈ rest, userId ∈ userIds)
    (hlisted : t.listed = some (toString member.guildId, userIds)) :
    (alertOfficers member rest).run.Follows (joining bot) member Ends t := by
  induction rest generalizing t with
  | nil => exact follows_pure trivial
  | cons userId rest ih =>
      rw [List.forall_mem_cons] at hrest
      exact (follows_alertOfficer hannounces hrest.1 hlisted).bind_raising
        (fun _ _ hlisted' => ih hrest.2 hlisted') fun _ _ _ => trivial

theorem follows_onMemberJoin :
    (onMemberJoin bot member).run.Follows (joining bot) member Ends t := by
  unfold onMemberJoin
  split
  next => exact follows_pure trivial
  next hhuman =>
    split
    next => exact follows_pure trivial
    next guildId hguild =>
      split
      next => exact follows_pure trivial
      next hsame =>
        obtain rfl : member.guildId = guildId := not_not.mp hsame
        have hannounces : Announces bot member := ⟨by simpa using hhuman, hguild⟩
        refine follows_recordStage.bind_raising (fun _ _ _ => ?_) fun _ _ _ => trivial
        refine follows_sendWelcomeMessage.bind_raising (fun _ _ _ => ?_) fun _ _ _ => trivial
        refine (follows_querySubscribers hannounces).bind_raising (fun found t' hqueried => ?_)
          fun _ _ _ => trivial
        cases found with
        | none => exact follows_pure trivial
        | some userIds =>
            exact follows_alertOfficers hannounces (fun _ h => h) (hqueried userIds rfl)

/-! ### The command -/

theorem follows_followupSend (content : String) :
    (followupSend content).run.Follows (alerting bot) (.command given) Ends t :=
  ⟨trivial, fun _ => trivial⟩

theorem follows_notifyNewMembers (hgranted : t.granted = some given.userId) :
    (notifyNewMembers given).run.Follows (alerting bot) (.command given) Ends t := by
  unfold notifyNewMembers
  split
  next hstate =>
    have hset : (setSubscription given.toggle).run.Follows (alerting bot) (.command given) Ends t :=
      ⟨⟨hgranted, rfl, hstate⟩, fun _ _ => trivial⟩
    have hbody : (do
        setSubscription given.toggle
        followupSend (toggledText given.state) : AlertM Unit).run.Follows (alerting bot)
          (.command given) Ends t :=
      hset.bind_raising (fun _ _ _ => follows_followupSend _) fun _ _ _ => trivial
    exact hbody.catching (fun _ _ _ => trivial) (fun _ _ _ => follows_followupSend _)
      fun _ _ _ => trivial
  next => exact follows_followupSend _

/-- **Every task keeps to the stages.** -/
theorem program_follows (x : AlertTask) :
    (x.program bot).run.Follows (alerting bot) x Ends .fresh := by
  cases x with
  | join member =>
      exact follows_onMemberJoin.embed (fun _ _ h => h) (fun _ _ _ h => h) (fun _ _ _ => rfl)
        (fun _ _ h => h) fun _ _ _ => rfl
  | command given =>
      refine ⟨trivial, fun outcome => ?_⟩
      cases outcome with
      | error exc => trivial
      | ok _ =>
          refine ⟨rfl, fun answer _ => ?_⟩
          match answer with
          | .error exc => trivial
          | .ok false => exact follows_followupSend _
          | .ok true => exact follows_notifyNewMembers rfl

end Follows

end MomBot.NewMemberAlerts
