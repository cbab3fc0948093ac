import MomBot.Cooperative.Handlers
import MomBot.Discord
import MomBot.Sidecar.Auth

/-!
# `sidecar/app.py`: the endpoints that pass a request on to Discord

Each endpoint looks into the guild's cache, makes at most one call, and answers; whatever the call
raises becomes a status.  A request is one that FastAPI has validated.  `str.lower` is a parameter.
-/

namespace MomBot.Sidecar

open Cooperative Coroutine Python

/-! ## Discord -/

/-- A member in the guild's cache. -/
structure CachedMember where
  id : ℤ
  name : String
  displayName : String
  deriving DecidableEq, Repr

/-- A channel in the guild's cache; `messageable` says whether it has a `send`. -/
structure CachedChannel where
  id : ℤ
  name : String
  messageable : Bool
  deriving DecidableEq, Repr

/-- A role of a member. -/
structure MemberRole where
  id : ℤ
  name : String
  deriving DecidableEq, Repr

/-- What `fetch_member` returns. -/
structure FetchedMember where
  id : ℤ
  name : String
  displayName : String
  roles : List MemberRole
  deriving DecidableEq, Repr

/-! ## Effects -/

/-- The lists of the guild's cache. -/
inductive ProxyOp where
  | guildMembers
  | guildChannels
  deriving DecidableEq, Repr

/-- What the cache of the guild holds. -/
def ProxyOp.Res : ProxyOp → Type
  | guildMembers => List CachedMember
  | guildChannels => List CachedChannel

/-- The calls of Discord. -/
inductive ProxyCall where
  | fetchMember (id : ℤ)
  | memberSend (memberId : ℤ) (content : String)
  | channelSend (channelId : ℤ) (content : String)
  | channelSendFile (channelId : ℤ) (filename : String) (data : List UInt8)
  deriving DecidableEq, Repr

/-- A message that carries a file comes back with the URLs of its attachments. -/
def ProxyCall.Ans : ProxyCall → Type
  | fetchMember _ => Except Raised FetchedMember
  | memberSend _ _ | channelSend _ _ => Outcome
  | channelSendFile _ _ _ => Except Raised (List String)

/-- Everything that a request asks. -/
abbrev proxyEffects : Effects := ⟨ProxyOp, ProxyOp.Res, ProxyCall, ProxyCall.Ans⟩

/-- A turn of a request. -/
abbrev ProxyTurn := Turn proxyEffects

/-- `HTTPException`, or anything else. -/
inductive ProxyError where
  | http (exc : HttpException)
  | raised (exc : Raised)
  deriving DecidableEq, Repr

/-- `except discord.NotFound`. -/
def ProxyError.isNotFound : ProxyError → Bool
  | raised .notFound => true
  | _ => false

/-- A handler, or a part of one. -/
abbrev ProxyM := ExceptT ProxyError (Coroutine proxyEffects)

/-- What a call of Discord has returned or raised. -/
def ProxyError.ofRaised {α : Type} : Except Raised α → Except ProxyError α
  | .ok value => .ok value
  | .error exc => .error (.raised exc)

/-- `guild.members`. -/
def guildMembers : ProxyM (List CachedMember) :=
  ExceptT.lift (perform (E := proxyEffects) .guildMembers)

/-- `guild.channels`. -/
def guildChannels : ProxyM (List CachedChannel) :=
  ExceptT.lift (perform (E := proxyEffects) .guildChannels)

/-- `guild.fetch_member`. -/
def fetchMember (id : ℤ) : ProxyM FetchedMember :=
  ExceptT.mk (.await (E := proxyEffects) (.fetchMember id) fun answer =>
    .done (ProxyError.ofRaised answer))

/-- `member.send(message)`. -/
def memberSend (memberId : ℤ) (content : String) : ProxyM Unit :=
  ExceptT.mk (.await (E := proxyEffects) (.memberSend memberId content) fun answer =>
    .done (ProxyError.ofRaised answer))

/-- `channel.send(message)`. -/
def channelSend (channelId : ℤ) (content : String) : ProxyM Unit :=
  ExceptT.mk (.await (E := proxyEffects) (.channelSend channelId content) fun answer =>
    .done (ProxyError.ofRaised answer))

/-- `channel.send(file=…)`. -/
def channelSendFile (channelId : ℤ) (filename : String) (data : List UInt8) :
    ProxyM (List String) :=
  ExceptT.mk (.await (E := proxyEffects) (.channelSendFile channelId filename data) fun answer =>
    .done (ProxyError.ofRaised answer))

/-! ## Requests and answers -/

/-- `UploadFile`. -/
structure Upload where
  filename : Option String
  data : List UInt8
  deriving DecidableEq, Repr

/-- The five requests, with what they carry. -/
inductive ProxyRequest where
  | getMembers
  | getMember (discordUserId : String)
  | notify (username message : String)
  | postMessage (channelName message : String)
  | postImage (channelName : String) (file : Upload)
  deriving DecidableEq, Repr

/-- An entry of the member list. -/
structure MemberEntry where
  id : String
  username : String
  displayName : String
  deriving DecidableEq, Repr

/-- A member with his roles, less `@everyone`. -/
structure GuildMemberView where
  discordId : String
  username : String
  displayName : String
  roles : List String
  roleNames : List String
  deriving DecidableEq, Repr

/-- The bodies of the answers. -/
inductive ProxyContent where
  | members (entries : List MemberEntry)
  /-- `none` is `is_member: false`. -/
  | member (view : Option GuildMemberView)
  | sent
  | sentImage (url : String)
  | detail (text : String)
  deriving DecidableEq, Repr

/-- An answer, as the client sees it. -/
structure HttpReply where
  statusCode : ℕ
  content : ProxyContent
  deriving DecidableEq, Repr

/-! ## Endpoints -/

/-- `get_members`. -/
def getMembers : ProxyM ProxyContent := do
  let members ← guildMembers
  return .members (members.map fun m => ⟨toString m.id, m.name, m.displayName⟩)

/-- What is answered about a member. -/
def FetchedMember.view (member : FetchedMember) : GuildMemberView where
  discordId := toString member.id
  username := member.name
  displayName := member.displayName
  roles := (member.roles.filter fun r => r.name ≠ "@everyone").map fun r => toString r.id
  roleNames := (member.roles.filter fun r => r.name ≠ "@everyone").map MemberRole.name

/-- `get_member`.  `int` is a `ValueError` beyond its limit on digits. -/
def getMember (discordUserId : String) : ProxyM ProxyContent :=
  match int discordUserId with
  | none => throw (.raised .unexpected)
  | some id =>
      catching ProxyError.isNotFound
        (do
          let member ← fetchMember id
          return .member (some member.view))
        fun _ => return .member none

/-- `HTTPException(404)`. -/
def notFound (detail : String) : ProxyError := .http ⟨404, detail, []⟩

/-- The first entry of a cache that matches, or 404. -/
def resolving {α : Type} (entries : ProxyM (List α)) (matching : α → Bool) (detail : String)
    (send : α → ProxyM ProxyContent) : ProxyM ProxyContent := do
  match (← entries).find? matching with
  | none => throw (notFound detail)
  | some found => send found

/-- `channel.send`, an `AttributeError` where there is none. -/
def requireSend (channel : CachedChannel) (send : ProxyM ProxyContent) : ProxyM ProxyContent :=
  if channel.messageable then send else throw (.raised .unexpected)

/-- `message.attachments[0].url`, an `IndexError` where there is none. -/
def firstUrl : List String → ProxyM ProxyContent
  | [] => throw (.raised .unexpected)
  | url :: _ => return .sentImage url

section Endpoints

variable (strLower : String → String)

/-- `notify`. -/
def notify (username message : String) : ProxyM ProxyContent :=
  resolving guildMembers (fun m => strLower m.name = strLower username)
    "Member not found in guild cache" fun member => do
      memberSend member.id message
      return .sent

/-- `post_message`. -/
def postMessage (channelName message : String) : ProxyM ProxyContent :=
  resolving guildChannels (fun c => c.name = channelName) "Channel not found in guild"
    fun channel => requireSend channel do
      channelSend channel.id message
      return .sent

/-- `file.filename or "image.png"`. -/
def Upload.name (file : Upload) : String :=
  match file.filename with
  | none => "image.png"
  | some filename => if filename = "" then "image.png" else filename

/-- `post_image`. -/
def postImage (channelName : String) (file : Upload) : ProxyM ProxyContent :=
  resolving guildChannels (fun c => c.name = channelName) "Channel not found in guild"
    fun channel => requireSend channel do
      let urls ← channelSendFile channel.id file.name file.data
      firstUrl urls

/-- The handler of a request. -/
def ProxyRequest.handler : ProxyRequest → ProxyM ProxyContent
  | getMembers => Sidecar.getMembers
  | getMember discordUserId => Sidecar.getMember discordUserId
  | notify username message => Sidecar.notify strLower username message
  | postMessage channelName message => Sidecar.postMessage channelName message
  | postImage channelName file => Sidecar.postImage channelName file

end Endpoints

/-! ## Answers -/

/-- What an exception that nothing else handles is answered by. -/
def internalServerError : HttpReply := ⟨500, .detail "Internal Server Error"⟩

/-- `_handle_discord_http_exception`. -/
def handleDiscordHttpException (status : ℕ) : HttpReply :=
  if status < 500 then ⟨502, .detail "Upstream Discord error"⟩
  else ⟨503, .detail "Discord temporarily unavailable"⟩

/-- The exception handlers of `_sidecar_sub`; nobody is answered by a task that is cancelled. -/
def translate : Raised → Option HttpReply
  | .forbidden => some ⟨403, .detail "Discord permission denied"⟩
  | .notFound => some (handleDiscordHttpException 404)
  | .httpException status => some (handleDiscordHttpException status)
  | .timeout => some ⟨503, .detail "Discord temporarily unavailable"⟩
  | .rateLimited | .clientError | .unexpected => some internalServerError
  | .cancelled => none

/-- How the application answers what has left a handler. -/
def replyOf : Except ProxyError ProxyContent → Option HttpReply
  | .ok content => some ⟨200, content⟩
  | .error (.http exc) => some ⟨exc.statusCode, .detail exc.detail⟩
  | .error (.raised exc) => translate exc

/-- A request with its header: the bearer token, then the endpoint. -/
def respond (strLower : String → String) (apiKey : ApiKey) (authorization : Option HeaderText)
    (x : ProxyRequest) : Coroutine proxyEffects (Option HttpReply) :=
  match requireBearer apiKey authorization with
  | .error (.http exc) => .done (some ⟨exc.statusCode, .detail exc.detail⟩)
  | .error .typeError => .done (some internalServerError)
  | .ok () => (x.handler strLower).run >>= fun outcome => .done (replyOf outcome)

end MomBot.Sidecar
