import MomBot.Cooperative.Handlers
import MomBot.Discord
import MomBot.Python.Int

/-!
# `main.py`: a member joins

`on_member_join` in its three stages: the join is recorded, the welcome message is sent, and the
subscribed officers are written to.  Whatever asks the database, the secrets or Discord may raise,
and each handler is around what it is around in the source.  Log records are left out.
-/

namespace MomBot.NewMemberAlerts

open Cooperative Coroutine Python

/-! ## Discord -/

/-- The member of a join event. -/
structure JoinedMember where
  id : ℤ
  guildId : ℤ
  bot : Bool
  deriving DecidableEq, Repr

/-- `member.mention`. -/
def JoinedMember.mention (member : JoinedMember) : String := "<@" ++ toString member.id ++ ">"

/-- A channel; `messageable` says whether it has a `send`. -/
structure Channel where
  id : ℤ
  messageable : Bool
  deriving DecidableEq, Repr

/-- What `guild_permissions` says of a cached member. -/
structure Officer where
  manageGuild : Bool
  deriving DecidableEq, Repr

/-- The fields of the client that the handler reads. -/
structure Bot where
  guildId : Option ℤ
  hasSessionFactory : Bool
  deriving DecidableEq, Repr

/-! ## Effects -/

/-- `utcNow` is the clock; `getChannel` and `getMember` are lookups in caches, which cannot
fail. -/
inductive JoinOp where
  | utcNow
  | recordJoin (guildId memberId joinedAt : ℤ)
  | loadSecret (name : String)
  | getChannel (channelId : ℤ)
  | listSubscriberIds (guildId : String)
  | getMember (userId : ℤ)

/-- What answers each operation: the database and the secrets may raise. -/
def JoinOp.Res : JoinOp → Type
  | utcNow => ℤ
  | recordJoin _ _ _ => Except Raised Unit
  | loadSecret _ => Except Raised String
  | getChannel _ => Option Channel
  | listSubscriberIds _ => Except Raised (List String)
  | getMember _ => Option Officer

/-- The calls of Discord that a join awaits. -/
inductive JoinCall where
  | fetchChannel (channelId : ℤ)
  | channelSend (channelId : ℤ) (content : String)
  | memberSend (userId : ℤ) (content : String)
  deriving DecidableEq, Repr

/-- What answers each call. -/
def JoinCall.Ans : JoinCall → Type
  | fetchChannel _ => Except Raised Channel
  | channelSend _ _ | memberSend _ _ => Outcome

/-- Everything that a join asks. -/
abbrev joinEffects : Effects :=
  ⟨JoinOp, JoinOp.Res, JoinCall, JoinCall.Ans⟩

/-- A join, or a part of one, that may raise. -/
abbrev JoinM := ExceptT Raised (Coroutine joinEffects)

/-- `datetime.now(UTC)`. -/
def utcNow : JoinM ℤ :=
  ExceptT.lift (perform (E := joinEffects) .utcNow)

/-- `activity_service.record_join`. -/
def recordJoin (guildId memberId joinedAt : ℤ) : JoinM Unit :=
  ExceptT.mk (perform (E := joinEffects) (.recordJoin guildId memberId joinedAt))

/-- `load_secret`. -/
def loadSecret (name : String) : JoinM String :=
  ExceptT.mk (perform (E := joinEffects) (.loadSecret name))

/-- `self.get_channel`. -/
def getChannel (channelId : ℤ) : JoinM (Option Channel) :=
  ExceptT.lift (perform (E := joinEffects) (.getChannel channelId))

/-- `alert_service.list_subscriber_ids`. -/
def listSubscriberIds (guildId : String) : JoinM (List String) :=
  ExceptT.mk (perform (E := joinEffects) (.listSubscriberIds guildId))

/-- `member.guild.get_member`. -/
def getMember (userId : ℤ) : JoinM (Option Officer) :=
  ExceptT.lift (perform (E := joinEffects) (.getMember userId))

/-- `self.fetch_channel`. -/
def fetchChannel (channelId : ℤ) : JoinM Channel :=
  ExceptT.mk (request (E := joinEffects) (.fetchChannel channelId))

/-- `channel.send`. -/
def channelSend (channelId : ℤ) (content : String) : JoinM Unit :=
  ExceptT.mk (request (E := joinEffects) (.channelSend channelId content))

/-- `officer.send`. -/
def memberSend (userId : ℤ) (content : String) : JoinM Unit :=
  ExceptT.mk (request (E := joinEffects) (.memberSend userId content))

/-! ## The handlers -/

/-- `int(text)`, a `ValueError` where the text is no number. -/
def intOrRaise (text : String) : JoinM ℤ :=
  match int text with
  | some n => return n
  | none => throw .unexpected

/-- The name of the secret that holds the id of the welcome channel. -/
def channelSecret : String := "new-members-channel-id"

/-- The welcome in the channel. -/
def welcomeText (member : JoinedMember) : String :=
  "👋 Welcome, " ++ member.mention ++ "! Glad to have you here.\n" ++
    "Please post a screenshot of your in-game player profile.\n" ++
    "Someone from the team will swing by shortly to help you settle in — hang tight!"

/-- The DM to an officer. -/
def alertText (member : JoinedMember) : String :=
  "New member joined the guild: " ++ member.mention

/-- `self._db_session_factory`, a `RuntimeError` where there is none. -/
def requireSessionFactory (bot : Bot) : JoinM Unit :=
  if bot.hasSessionFactory then return () else throw .unexpected

/-- The first `try`. -/
def recordStage (bot : Bot) (member : JoinedMember) : JoinM Unit :=
  catching Raised.isException
    (do
      requireSessionFactory bot
      let joinedAt ← utcNow
      recordJoin member.guildId member.id joinedAt)
    fun _ => return ()

/-- The id of the welcome channel; `none` where it cannot be had. -/
def welcomeChannelId : JoinM (Option ℤ) :=
  catching Raised.isException
    (do
      let text ← loadSecret channelSecret
      let channelId ← intOrRaise text
      return some channelId)
    fun _ => return none

/-- `get_channel`, and `fetch_channel` for a channel that is not in the cache. -/
def resolveChannel (channelId : ℤ) : JoinM (Option Channel) := do
  match ← getChannel channelId with
  | some channel => return some channel
  | none =>
      catching Raised.isHttpException
        (do
          let channel ← fetchChannel channelId
          return some channel)
        fun _ => return none

/-- The send of the welcome, with its handler. -/
def sendToChannel (member : JoinedMember) (channel : Channel) : JoinM Unit :=
  if channel.messageable then
    catching Raised.isHttpException (channelSend channel.id (welcomeText member)) fun _ => return ()
  else return ()

/-- `_send_welcome_message`. -/
def sendWelcomeMessage (member : JoinedMember) : JoinM Unit := do
  match ← welcomeChannelId with
  | none => return ()
  | some channelId =>
      match ← resolveChannel channelId with
      | none => return ()
      | some channel => sendToChannel member channel

/-- The second `try`; `none` where the query fails. -/
def querySubscribers (bot : Bot) (guildId : ℤ) : JoinM (Option (List String)) :=
  catching Raised.isException
    (do
      requireSessionFactory bot
      let subscriberIds ← listSubscriberIds (toString guildId)
      return some subscriberIds)
    fun _ => return none

/-- `id` is the officer's id as a number. -/
def sendAlert (member : JoinedMember) (id : ℤ) : Option Officer → JoinM Unit
  | none => return ()
  | some officer =>
      if officer.manageGuild then
        catching Raised.isHttpException (memberSend id (alertText member)) fun _ => return ()
      else return ()

/-- One round of the loop over the subscribers. -/
def alertOfficer (member : JoinedMember) (userId : String) : JoinM Unit := do
  let id ← intOrRaise userId
  let officer ← getMember id
  sendAlert member id officer

/-- The loop over the subscribers. -/
def alertOfficers (member : JoinedMember) : List String → JoinM Unit
  | [] => return ()
  | userId :: rest => do
      alertOfficer member userId
      alertOfficers member rest

/-- What comes after the guards. -/
def announce (bot : Bot) (member : JoinedMember) (guildId : ℤ) : JoinM Unit := do
  recordStage bot member
  sendWelcomeMessage member
  match ← querySubscribers bot guildId with
  | none => return ()
  | some subscriberIds => alertOfficers member subscriberIds

/-- `on_member_join`. -/
def onMemberJoin (bot : Bot) (member : JoinedMember) : JoinM Unit :=
  if member.bot then return ()
  else
    match bot.guildId with
    | none => return ()
    | some guildId => if member.guildId ≠ guildId then return () else announce bot member guildId

end MomBot.NewMemberAlerts
