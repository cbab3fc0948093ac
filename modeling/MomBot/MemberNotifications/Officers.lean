import MomBot.Cooperative.Embedding
import MomBot.MemberNotifications.Replies

/-!
# The five commands and their gate

`require_manage_guild` answers the interaction, looks at the invoker's permission, and only then
runs the handler.  The three handlers that write check their texts themselves, one after another,
before they call the service; the two that read are those of `Replies.lean`.

A reply does not say everything.  The message for internal errors is also sent where the service
did its work and only the reply that says so failed (`Told`).
-/

namespace MomBot.MemberNotifications

open Cooperative Coroutine Python

/-! ## Texts -/

/-- `_INVALID_DATE_MSG`. -/
def invalidDateMsg : String :=
  "Invalid start_date — expected format YYYY-MM-DD (e.g. '2027-06-01')."

/-- `_INVALID_TIME_MSG`. -/
def invalidTimeMsg : String :=
  "Invalid time — expected format HH:MM with a valid hour (0-23) and " ++
    "minute (0-59), e.g. '09:00'. Seconds are not permitted."

/-- `_INVALID_CADENCE_MSG`. -/
def invalidCadenceMsg : String :=
  "Invalid cadence — must be one of 'weekly', 'biweekly', or 'monthly'."

/-- The reply to an add that was accepted. -/
def createdText (name : String) (memberId : ℕ) : String :=
  "Notification '" ++ name ++ "' created for <@" ++ toString memberId ++ ">."

/-- The reply to `DuplicateNotificationError`. -/
def alreadyExistsText (name : String) : String :=
  "A notification named '" ++ name ++ "' already exists."

/-- The reply to an update that was accepted. -/
def updatedText (name : String) : String := "Notification '" ++ name ++ "' updated."

/-- The reply to a removal that was accepted. -/
def removedText (name : String) : String := "Notification '" ++ name ++ "' removed."

/-! ## Effects -/

/-- What the service raises, or anything else. -/
inductive CommandError where
  | service (error : ServiceError)
  | raised (exc : Raised)
  deriving DecidableEq, Repr

/-- `except Exception`. -/
def CommandError.isException : CommandError → Bool
  | service _ => true
  | raised exc => exc.isException

/-- `except DuplicateNotificationError`. -/
def CommandError.isDuplicate : CommandError → Bool
  | service (.duplicateNotification _) => true
  | _ => false

/-- `except NotificationNotFoundError`. -/
def CommandError.isNotFound : CommandError → Bool
  | service (.notificationNotFound _) => true
  | _ => false

/-- The calls of the service that write. -/
inductive ServiceOp where
  | create (name targetDiscordId : String) (anchorDateUtc : Date) (fireTimeUtc : Time)
      (cadence messageTemplate : String)
  | update (name : String) (fields : Fields)
  | delete (name : String)
  deriving DecidableEq, Repr

/-- `manageGuild` is a look into the guild's cache, the others ask the service. -/
inductive CommandOp where
  | manageGuild (userId : ℕ)
  | service (o : ServiceOp)
  | query (o : ReplyOp)

/-- The permission and the service may raise; a query is answered. -/
def CommandOp.Res : CommandOp → Type
  -- the invoker of a command outside a guild has no `guild_permissions`
  | manageGuild _ => Except CommandError Bool
  | service _ => Except CommandError Unit
  | query o => o.Res

/-- The calls of Discord: the deferral, and the replies. -/
inductive CommandCall where
  | defer
  | reply (call : ReplyCall)
  deriving DecidableEq, Repr

/-- Everything that a command asks. -/
abbrev commandEffects : Effects :=
  ⟨CommandOp, CommandOp.Res, CommandCall, fun _ => Outcome⟩

/-- A command, or a part of one, that may raise. -/
abbrev CommandM := ExceptT CommandError (Coroutine commandEffects)

/-- The handlers that read, among the commands. -/
def queries : Embedding replyEffects commandEffects where
  op := .query
  res _ r := r
  call := .reply
  ans _ a := a

/-- What a Discord call or a handler of `Replies.lean` came to. -/
def CommandError.ofRaised {α : Type} : Except Raised α → Except CommandError α
  | .ok value => .ok value
  | .error exc => .error (.raised exc)

/-- A call of Discord, which raises what it was answered. -/
def awaitCall (call : CommandCall) : CommandM Unit :=
  ExceptT.mk (.await (E := commandEffects) call fun outcome =>
    .done (CommandError.ofRaised outcome))

/-- `interaction.followup.send(content, ephemeral=True)`. -/
def reply (content : String) : CommandM Unit :=
  awaitCall (.reply (.followupSend content))

/-- `interaction.user.guild_permissions.manage_guild`. -/
def manageGuild (userId : ℕ) : CommandM Bool :=
  ExceptT.mk (perform (E := commandEffects) (.manageGuild userId))

/-- A synchronous call of the service. -/
def service (o : ServiceOp) : CommandM Unit :=
  ExceptT.mk (perform (E := commandEffects) (.service o))

/-! ## Handlers -/

/-- A member that Discord's picker gives.  Its ids have 64 bits. -/
structure PickedMember where
  id : ℕ
  id_lt : id < 2 ^ 64
  deriving DecidableEq, Repr

/-- The parameters of `/member-notify-add`. -/
structure AddParameters where
  member : PickedMember
  name : String
  startDate : String
  time : String
  cadence : String
  message : String
  deriving DecidableEq, Repr

/-- The parameters of `/member-notify-update`; all but the name are optional. -/
structure UpdateParameters where
  name : String
  member : Option PickedMember
  startDate : Option String
  time : Option String
  cadence : Option String
  message : Option String
  enabled : Option Bool
  deriving DecidableEq, Repr

/-- A call of the service, and the reply to it.  `expected` is the one error of the service that has
a reply of its own. -/
def concluding (o : ServiceOp) (done : String) (expected : CommandError → Bool)
    (otherwise : String) : CommandM Unit :=
  tryCatch
    (do
      service o
      reply done)
    fun exc =>
      if expected exc then reply otherwise
      else if exc.isException then reply opsErrorMsg
      else throw exc

/-- `member_notify_add`. -/
def memberNotifyAdd (given : AddParameters) : CommandM Unit :=
  match parseDate given.startDate with
  | none => reply invalidDateMsg
  | some parsedDate =>
      match parseTime given.time with
      | none => reply invalidTimeMsg
      | some parsedTime =>
          if given.cadence ∉ validCadences then reply invalidCadenceMsg
          else
            concluding
              (.create given.name (toString given.member.id) parsedDate parsedTime given.cadence
                given.message)
              (createdText given.name given.member.id) CommandError.isDuplicate
              (alreadyExistsText given.name)

/-- An optional text through its parser; `message` is the reply where it cannot be read. -/
def parsed {α : Type} (parse : String → Option α) (message : String) :
    Option String → Except String (Option (Option α))
  | none => .ok none
  | some text =>
      match parse text with
      | none => .error message
      | some value => .ok (some (some value))

/-- The cadences are not parsed, only looked up. -/
def knownCadence (text : String) : Option String :=
  if text ∈ validCadences then some text else none

/-- The fields of `member_notify_update`, or the reply to the first text that is not in order. -/
def updatedFields (given : UpdateParameters) : Except String Fields := do
  let anchorDateUtc ← parsed parseDate invalidDateMsg given.startDate
  let fireTimeUtc ← parsed parseTime invalidTimeMsg given.time
  let cadence ← parsed knownCadence invalidCadenceMsg given.cadence
  return {
    targetDiscordId := given.member.map fun member => toString member.id
    anchorDateUtc := anchorDateUtc
    fireTimeUtc := fireTimeUtc
    cadence := cadence
    messageTemplate := given.message.map some
    enabled := given.enabled.map some
    unknown := [] }

/-- `member_notify_update`. -/
def memberNotifyUpdate (given : UpdateParameters) : CommandM Unit :=
  match updatedFields given with
  | .error message => reply message
  | .ok fields =>
      concluding (.update given.name fields) (updatedText given.name) CommandError.isNotFound
        (notFoundText given.name)

/-- `member_notify_remove`. -/
def memberNotifyRemove (name : String) : CommandM Unit :=
  concluding (.delete name) (removedText name) CommandError.isNotFound (notFoundText name)

/-! ## The gate -/

/-- The interaction of a command, as its gate uses it. -/
def interaction (userId : ℕ) : Interaction CommandM where
  defer := awaitCall .defer
  manageGuild := manageGuild userId
  followupSend := reply

/-- The commands that write, with their parameters. -/
inductive Command where
  | add (given : AddParameters)
  | update (given : UpdateParameters)
  | remove (name : String)
  | list
  | get (name : String)
  deriving DecidableEq, Repr

/-- The handlers of `Replies.lean` as they run among the commands. -/
def reading (handler : ReplyM Unit) : CommandM Unit :=
  ExceptT.mk (handler.run.embed queries >>= fun result => .done (CommandError.ofRaised result))

/-- The callback of a command. -/
def Command.handler : Command → CommandM Unit
  | add given => memberNotifyAdd given
  | update given => memberNotifyUpdate given
  | remove name => memberNotifyRemove name
  | list => reading memberNotifyList
  | get name => reading (memberNotifyGet name)

/-- A command with its invoker. -/
structure Invocation where
  userId : ℕ
  command : Command
  deriving DecidableEq, Repr

/-- The callback behind its gate. -/
def Invocation.program (x : Invocation) : CommandM Unit :=
  requireManageGuild (interaction x.userId) x.command.handler

end MomBot.MemberNotifications
