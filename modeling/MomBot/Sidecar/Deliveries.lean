import Mathlib.Data.List.Count
import MomBot.Sidecar.Proxies

/-!
# What a client may conclude from an answer

A client repeats a request that posts something until it is content with the answer.  Discord has
posted the message or not; an accepted call has, a refused one has not, and of the others nobody
knows.  Every answer but three tells the client which it was: of the attempts, as many have posted
the message as were answered 200, and perhaps some of those that were answered 500 or 503 or not at
all (`deliveries_of_attempts`).
-/

namespace MomBot.Sidecar

open Cooperative Coroutine Python

/-! ## Targets -/

/-- What a request that posts something is about. -/
inductive Target where
  | missing
  /-- A channel without a `send`. -/
  | mute
  | call (call : ProxyCall)
  deriving DecidableEq, Repr

/-- The request posts something. -/
def ProxyRequest.isPost : ProxyRequest → Bool
  | notify _ _ | postMessage _ _ | postImage _ _ => true
  | getMembers | getMember _ => false

/-- The guild's cache, as far as an attempt has read it. -/
structure GuildCache where
  members : List CachedMember
  channels : List CachedChannel

/-- The turn in which a request that posts something reads the cache: a member is looked for among
the members, a channel among the channels. -/
def ProxyRequest.read (guild : GuildCache) : ProxyRequest → ProxyTurn
  | notify _ _ | getMembers | getMember _ => .op .guildMembers guild.members
  | postMessage _ _ | postImage _ _ => .op .guildChannels guild.channels

/-- What a request posts to a channel, if it has a `send`. -/
def CachedChannel.target (channel : CachedChannel) (call : ProxyCall) : Target :=
  if channel.messageable then .call call else .mute

section Target

variable (strLower : String → String)

/-- The first member of that name in whichever case, or the first channel of exactly that name. -/
def ProxyRequest.target (guild : GuildCache) : ProxyRequest → Target
  | notify username message =>
      match guild.members.find? fun m => strLower m.name = strLower username with
      | none => .missing
      | some member => .call (.memberSend member.id message)
  | postMessage channelName message =>
      match guild.channels.find? fun c => c.name = channelName with
      | none => .missing
      | some channel => channel.target (.channelSend channel.id message)
  | postImage channelName file =>
      match guild.channels.find? fun c => c.name = channelName with
      | none => .missing
      | some channel => channel.target (.channelSendFile channel.id file.name file.data)
  | getMembers | getMember _ => .missing

end Target

/-- What a call came to; a posted image without an attachment is an error. -/
def settle : (call : ProxyCall) → call.Ans → Except ProxyError ProxyContent
  | .memberSend _ _, answer | .channelSend _ _, answer =>
      (ProxyError.ofRaised answer).map fun _ => .sent
  | .channelSendFile _ _ _, .ok (url :: _) => .ok (.sentImage url)
  | .channelSendFile _ _ _, .ok [] => .error (.raised .unexpected)
  | .channelSendFile _ _ _, .error exc => .error (.raised exc)
  | .fetchMember _, .ok member => .ok (.member (some member.view))
  | .fetchMember _, .error exc => .error (.raised exc)

/-- One attempt: the cache is read in vain, or the call is made that the cache tells. -/
inductive Attempted (strLower : String → String) (x : ProxyRequest) :
    List ProxyTurn → Except ProxyError ProxyContent → Prop
  | missing (guild : GuildCache) {detail : String} : x.target strLower guild = .missing →
      Attempted strLower x [x.read guild] (.error (notFound detail))
  | mute (guild : GuildCache) : x.target strLower guild = .mute →
      Attempted strLower x [x.read guild] (.error (.raised .unexpected))
  | called (guild : GuildCache) {call : ProxyCall} {answer : call.Ans} :
      x.target strLower guild = .call call →
      Attempted strLower x [x.read guild, .await call answer] (settle call answer)

section Attempts

variable {strLower : String → String} {x : ProxyRequest} {turns : List ProxyTurn}
  {outcome : Except ProxyError ProxyContent}

/-- The target is decided by the entry that is found. -/
theorem resolving_cases {α : Type} {entries : List α} {matching : α → Bool} {detail : String}
    {send : α → ProxyM ProxyContent} {turns : List ProxyTurn}
    {outcome : Except ProxyError ProxyContent}
    (h : (match entries.find? matching with
      | none => throw (notFound detail)
      | some found => send found : ProxyM ProxyContent).run.Dialogue turns outcome) :
    entries.find? matching = none ∧ turns = [] ∧ outcome = .error (notFound detail) ∨
      ∃ found, entries.find? matching = some found ∧ (send found).run.Dialogue turns outcome := by
  cases hfound : entries.find? matching with
  | none =>
      rw [hfound] at h
      exact .inl ⟨rfl, dialogue_throw.mp h⟩
  | some found =>
      rw [hfound] at h
      exact .inr ⟨found, rfl, h⟩

theorem memberSend_cases {memberId : ℤ} {content : String}
    (h : (do
      memberSend memberId content
      return .sent : ProxyM ProxyContent).run.Dialogue turns outcome) :
    ∃ answer, turns = [.await (.memberSend memberId content) answer] ∧
      outcome = settle (.memberSend memberId content) answer := by
  obtain ⟨answer, rest, rfl, hrest⟩ := h
  cases answer with
  | ok _ =>
      obtain ⟨rfl, rfl⟩ := hrest
      exact ⟨.ok (), rfl, rfl⟩
  | error exc =>
      obtain ⟨rfl, rfl⟩ := hrest
      exact ⟨.error exc, rfl, rfl⟩

theorem channelSend_cases {channelId : ℤ} {content : String}
    (h : (do
      channelSend channelId content
      return .sent : ProxyM ProxyContent).run.Dialogue turns outcome) :
    ∃ answer, turns = [.await (.channelSend channelId content) answer] ∧
      outcome = settle (.channelSend channelId content) answer := by
  obtain ⟨answer, rest, rfl, hrest⟩ := h
  cases answer with
  | ok _ =>
      obtain ⟨rfl, rfl⟩ := hrest
      exact ⟨.ok (), rfl, rfl⟩
  | error exc =>
      obtain ⟨rfl, rfl⟩ := hrest
      exact ⟨.error exc, rfl, rfl⟩

theorem channelSendFile_cases {channelId : ℤ} {filename : String} {data : List UInt8}
    (h : (do
      let urls ← channelSendFile channelId filename data
      firstUrl urls : ProxyM ProxyContent).run.Dialogue turns outcome) :
    ∃ answer, turns = [.await (.channelSendFile channelId filename data) answer] ∧
      outcome = settle (.channelSendFile channelId filename data) answer := by
  obtain ⟨answer, rest, rfl, hrest⟩ := h
  match answer with
  | .error exc =>
      obtain ⟨rfl, rfl⟩ := hrest
      exact ⟨.error exc, rfl, rfl⟩
  | .ok [] =>
      obtain ⟨rfl, rfl⟩ := hrest
      exact ⟨.ok [], rfl, rfl⟩
  | .ok (url :: urls) =>
      obtain ⟨rfl, rfl⟩ := hrest
      exact ⟨.ok (url :: urls), rfl, rfl⟩

/-- A channel that cannot be written to is not called. -/
theorem requireSend_cases {channel : CachedChannel} {send : ProxyM ProxyContent}
    (h : (requireSend channel send).run.Dialogue turns outcome) (call : ProxyCall) :
    channel.target call = .mute ∧ turns = [] ∧ outcome = .error (.raised .unexpected) ∨
      channel.target call = .call call ∧ send.run.Dialogue turns outcome := by
  unfold requireSend at h
  split at h
  next hsend => exact .inr ⟨if_pos hsend, h⟩
  next hmute => exact .inl ⟨if_neg hmute, dialogue_throw.mp h⟩

theorem attempted_notify {username message : String}
    (h : (notify strLower username message).run.Dialogue turns outcome) :
    Attempted strLower (.notify username message) turns outcome := by
  obtain ⟨members, rest, rfl, hrest⟩ := h
  rcases resolving_cases hrest with ⟨hnone, rfl, rfl⟩ | ⟨member, hmember, hsend⟩
  · refine .missing ⟨members, []⟩ ?_
    rw [ProxyRequest.target, hnone]
  · obtain ⟨answer, rfl, rfl⟩ := memberSend_cases hsend
    refine .called ⟨members, []⟩ ?_
    rw [ProxyRequest.target, hmember]

theorem attempted_postMessage {channelName message : String}
    (h : (postMessage channelName message).run.Dialogue turns outcome) :
    Attempted strLower (.postMessage channelName message) turns outcome := by
  obtain ⟨channels, rest, rfl, hrest⟩ := h
  rcases resolving_cases hrest with ⟨hnone, rfl, rfl⟩ | ⟨channel, hchannel, hsend⟩
  · refine .missing ⟨[], channels⟩ ?_
    rw [ProxyRequest.target, hnone]
  · have htarget : (ProxyRequest.postMessage channelName message).target strLower ⟨[], channels⟩ =
        channel.target (.channelSend channel.id message) := by
      rw [ProxyRequest.target, hchannel]
    rcases requireSend_cases hsend (.channelSend channel.id message) with
      ⟨hmute, rfl, rfl⟩ | ⟨hcall, hsent⟩
    · exact .mute ⟨[], channels⟩ (htarget.trans hmute)
    · obtain ⟨answer, rfl, rfl⟩ := channelSend_cases hsent
      exact .called ⟨[], channels⟩ (htarget.trans hcall)

theorem attempted_postImage {channelName : String} {file : Upload}
    (h : (postImage channelName file).run.Dialogue turns outcome) :
    Attempted strLower (.postImage channelName file) turns outcome := by
  obtain ⟨channels, rest, rfl, hrest⟩ := h
  rcases resolving_cases hrest with ⟨hnone, rfl, rfl⟩ | ⟨channel, hchannel, hsend⟩
  · refine .missing ⟨[], channels⟩ ?_
    rw [ProxyRequest.target, hnone]
  · have htarget : (ProxyRequest.postImage channelName file).target strLower ⟨[], channels⟩ =
        channel.target (.channelSendFile channel.id file.name file.data) := by
      rw [ProxyRequest.target, hchannel]
    rcases requireSend_cases hsend (.channelSendFile channel.id file.name file.data) with
      ⟨hmute, rfl, rfl⟩ | ⟨hcall, hsent⟩
    · exact .mute ⟨[], channels⟩ (htarget.trans hmute)
    · obtain ⟨answer, rfl, rfl⟩ := channelSendFile_cases hsent
      exact .called ⟨[], channels⟩ (htarget.trans hcall)

theorem attempted_of_handler (hpost : x.isPost = true)
    (h : (x.handler strLower).run.Dialogue turns outcome) : Attempted strLower x turns outcome := by
  cases x with
  | getMembers | getMember => cases hpost
  | notify username message => exact attempted_notify h
  | postMessage channelName message => exact attempted_postMessage h
  | postImage channelName file => exact attempted_postImage h

end Attempts

/-! ## Answers -/

/-- The request carries the key. -/
def Authorized (apiKey : ApiKey) (authorization : Option HeaderText) : Prop :=
  ∃ value ∈ authorization, Carries value apiKey.chars

/-- The answers to a request without the key. -/
def isUnauthorized (reply : Option HttpReply) : Prop :=
  reply = some ⟨403, .detail "Not authenticated"⟩ ∨ reply = some ⟨401, .detail "Invalid API key"⟩ ∨
    reply = some internalServerError

section Respond

variable {strLower : String → String} {apiKey : ApiKey} {authorization : Option HeaderText}
  {x : ProxyRequest} {turns : List ProxyTurn} {reply : Option HttpReply}

/-- **Without the key nothing is asked.** -/
theorem respond_cases (h : (respond strLower apiKey authorization x).Dialogue turns reply) :
    turns = [] ∧ isUnauthorized reply ∨
      Authorized apiKey authorization ∧
        ∃ outcome, (x.handler strLower).run.Dialogue turns outcome ∧ reply = replyOf outcome := by
  unfold respond at h
  cases authorization with
  | none =>
      obtain ⟨rfl, rfl⟩ := h
      exact .inl ⟨rfl, .inl rfl⟩
  | some value =>
      have hjudged := requireBearer_judged apiKey value
      generalize requireBearer apiKey (some value) = answer at hjudged h
      cases hjudged with
      | rejected =>
          obtain ⟨rfl, rfl⟩ := h
          exact .inl ⟨rfl, .inr (.inl rfl)⟩
      | escaped =>
          obtain ⟨rfl, rfl⟩ := h
          exact .inl ⟨rfl, .inr (.inr rfl)⟩
      | accepted hcarries =>
          obtain ⟨first, outcome, second, rfl, hfirst, hsecond⟩ := dialogue_bind.mp h
          obtain ⟨rfl, rfl⟩ := hsecond
          rw [List.append_nil]
          exact .inr ⟨⟨value, rfl, hcarries⟩, outcome, hfirst, rfl⟩

end Respond

/-! ## Deliveries -/

/-- What a call raised. -/
def ProxyCall.raised : (call : ProxyCall) → call.Ans → Option Raised
  | .fetchMember _, .error exc | .memberSend _ _, .error exc | .channelSend _ _, .error exc
  | .channelSendFile _ _ _, .error exc => some exc
  | .fetchMember _, .ok _ | .memberSend _ _, .ok _ | .channelSend _ _, .ok _
  | .channelSendFile _ _ _, .ok _ => none

/-- The call posts a message. -/
def ProxyCall.isSend : ProxyCall → Bool
  | memberSend _ _ | channelSend _ _ | channelSendFile _ _ _ => true
  | fetchMember _ => false

/-- Discord has answered that it does not do it. -/
def isRefusal : Raised → Bool
  | .forbidden | .notFound => true
  | .httpException status => status < 500
  | .rateLimited | .timeout | .clientError | .cancelled | .unexpected => false

/-- In which turns a message was posted: where the call was accepted, and not where it was refused.
A call that came to neither may have posted its message or not. -/
structure Posts (posted : ProxyTurn → Bool) : Prop where
  op : ∀ o answer, posted (.op o answer) = false
  accepted : ∀ call answer, call.isSend = true → call.raised answer = none →
    posted (.await call answer) = true
  refused : ∀ call answer exc, call.raised answer = some exc → isRefusal exc = true →
    posted (.await call answer) = false

/-- An attempt, with what it was answered. -/
abbrev Attempt := List ProxyTurn × Option HttpReply

/-- The client knows that the message was posted. -/
def isConfirmed (reply : Option HttpReply) : Bool := reply.any fun r => r.statusCode = 200

/-- The client cannot tell whether the message was posted. -/
def isDoubtful : Option HttpReply → Bool
  | none => true
  | some r => r.statusCode = 500 || r.statusCode = 503

/-! ### Calls -/

section Calls

variable {call : ProxyCall} {answer : call.Ans} {exc : Raised}

theorem settle_of_raised (h : call.raised answer = some exc) :
    settle call answer = .error (.raised exc) := by
  cases call <;> cases answer <;> cases h <;> rfl

theorem settle_of_accepted (hsend : call.isSend = true) (h : call.raised answer = none) :
    (∃ content, settle call answer = .ok content) ∨
      settle call answer = .error (.raised .unexpected) := by
  cases call with
  | fetchMember id => cases hsend
  | memberSend memberId content | channelSend channelId content =>
      cases answer with
      | ok _ => exact .inl ⟨_, rfl⟩
      | error exc => cases h
  | channelSendFile channelId filename data =>
      match answer with
      | .error exc => cases h
      | .ok [] => exact .inr rfl
      | .ok (url :: urls) => exact .inl ⟨_, rfl⟩

theorem not_confirmed_translate (exc : Raised) : isConfirmed (translate exc) = false := by
  cases exc with
  | httpException status =>
      by_cases h : status < 500 <;> simp [translate, handleDiscordHttpException, isConfirmed, h]
  | forbidden | notFound | rateLimited | timeout | clientError | cancelled | unexpected => rfl

theorem doubtful_translate (h : isRefusal exc = false) : isDoubtful (translate exc) = true := by
  cases exc with
  | httpException status =>
      have hserver : ¬ status < 500 := of_decide_eq_false h
      simp [translate, handleDiscordHttpException, isDoubtful, hserver]
  | forbidden | notFound => cases h
  | rateLimited | timeout | clientError | cancelled | unexpected => rfl

variable {posted : ProxyTurn → Bool}

/-- A message behind a 200 was posted. -/
theorem posted_of_confirmed (hposts : Posts posted) (hsend : call.isSend = true)
    (h : isConfirmed (replyOf (settle call answer)) = true) :
    posted (.await call answer) = true := by
  cases hraised : call.raised answer with
  | none => exact hposts.accepted call answer hsend hraised
  | some exc =>
      rw [settle_of_raised hraised, replyOf, not_confirmed_translate] at h
      cases h

/-- A message that was posted is behind a 200, or behind an answer that leaves it open. -/
theorem known_of_posted (hposts : Posts posted) (hsend : call.isSend = true)
    (h : posted (.await call answer) = true) :
    isConfirmed (replyOf (settle call answer)) = true ∨
      isDoubtful (replyOf (settle call answer)) = true := by
  cases hraised : call.raised answer with
  | none =>
      rcases settle_of_accepted hsend hraised with ⟨content, hok⟩ | herror
      · rw [hok]
        exact .inl rfl
      · rw [herror]
        exact .inr rfl
  | some exc =>
      rw [settle_of_raised hraised]
      refine .inr (doubtful_translate ?_)
      by_contra hrefusal
      rw [Bool.not_eq_false] at hrefusal
      rw [hposts.refused call answer exc hraised hrefusal] at h
      cases h

end Calls

/-! ### Attempts -/

section Deliveries

variable {strLower : String → String} {apiKey : ApiKey} {authorization : Option HeaderText}
  {x : ProxyRequest} {turns : List ProxyTurn} {reply : Option HttpReply}
  {posted : ProxyTurn → Bool}

theorem isSend_of_target {guild : GuildCache} {call : ProxyCall}
    (h : x.target strLower guild = .call call) : call.isSend = true := by
  have hchannel {channel : CachedChannel} {call' : ProxyCall} (hsend : call'.isSend = true)
      (htarget : channel.target call' = .call call) : call.isSend = true := by
    unfold CachedChannel.target at htarget
    split at htarget
    next => exact Target.call.inj htarget ▸ hsend
    next => cases htarget
  unfold ProxyRequest.target at h
  split at h
  next =>
    split at h
    next => cases h
    next => exact Target.call.inj h ▸ rfl
  next =>
    split at h
    next => cases h
    next => exact hchannel rfl h
  next =>
    split at h
    next => cases h
    next => exact hchannel rfl h
  next => cases h
  next => cases h

theorem not_posted_read (hposts : Posts posted) (x : ProxyRequest) (guild : GuildCache) :
    posted (x.read guild) = false := by
  cases x <;> exact hposts.op _ _

/-- A look at the cache is no call. -/
theorem read_ne_await (x : ProxyRequest) (guild : GuildCache) {call : ProxyCall}
    {answer : call.Ans} : x.read guild ≠ .await call answer := by
  intro h
  cases x <;> cases h

/-- **Step lemma.**  What one attempt posts. -/
theorem posts_of_attempt (hposts : Posts posted) (hpost : x.isPost = true)
    (h : (respond strLower apiKey authorization x).Dialogue turns reply) :
    (isConfirmed reply = true → turns.countP posted = 1) ∧
      turns.countP posted ≤ (isConfirmed reply).toNat + (isDoubtful reply).toNat := by
  rcases respond_cases h with ⟨rfl, hreply⟩ | ⟨-, outcome, hhandler, rfl⟩
  · refine ⟨fun hconfirmed => ?_, Nat.zero_le _⟩
    rcases hreply with rfl | rfl | rfl <;> cases hconfirmed
  · cases attempted_of_handler hpost hhandler with
    | missing guild =>
        rw [List.countP_singleton, not_posted_read hposts]
        exact ⟨(fun hconfirmed => by cases hconfirmed), Nat.zero_le _⟩
    | mute guild =>
        rw [List.countP_singleton, not_posted_read hposts]
        exact ⟨(fun hconfirmed => by cases hconfirmed), Nat.zero_le _⟩
    | @called guild call answer htarget =>
        have hsend := isSend_of_target htarget
        rw [List.countP_cons_of_neg (by rw [not_posted_read hposts]; simp),
          List.countP_singleton]
        refine ⟨fun hconfirmed => if_pos (posted_of_confirmed hposts hsend hconfirmed), ?_⟩
        split
        next hposted =>
          rcases known_of_posted hposts hsend hposted with hconfirmed | hdoubtful
          · rw [hconfirmed]
            exact Nat.le_add_right 1 _
          · rw [hdoubtful]
            exact Nat.le_add_left 1 _
        next => exact Nat.zero_le _

/-- **Run lemma.**  Of the attempts at a request, those that were answered 200 have posted its
message once each, and beyond these only attempts that were answered 500 or 503, or not at all, may
have. -/
theorem posts_of_attempts (hposts : Posts posted) (hpost : x.isPost = true)
    {attempts : List Attempt}
    (h : ∀ a ∈ attempts, (respond strLower apiKey authorization x).Dialogue a.1 a.2) :
    attempts.countP (fun a => isConfirmed a.2) ≤ (attempts.flatMap Prod.fst).countP posted ∧
      (attempts.flatMap Prod.fst).countP posted ≤
        attempts.countP (fun a => isConfirmed a.2) + attempts.countP fun a => isDoubtful a.2 := by
  induction attempts with
  | nil => exact ⟨le_rfl, le_rfl⟩
  | cons a rest ih =>
      rw [List.forall_mem_cons] at h
      obtain ⟨hfew, hmany⟩ := ih h.2
      obtain ⟨hconfirmed, hcount⟩ := posts_of_attempt hposts hpost h.1
      rw [List.flatMap_cons, List.countP_append, List.countP_cons, List.countP_cons]
      have hone : (isConfirmed a.2).toNat ≤ a.1.countP posted := by
        cases hreply : isConfirmed a.2 with
        | false => exact Nat.zero_le _
        | true => exact (hconfirmed hreply).ge
      have hbool : ∀ b : Bool, (if b = true then 1 else 0) = b.toNat := by decide
      rw [hbool, hbool]
      constructor <;> omega

/-- Whatever is asked of Discord for a request that posts something, it carries the key, and the
call is the one for its target in the cache that the attempt has read. -/
theorem target_of_attempt (hpost : x.isPost = true)
    (h : (respond strLower apiKey authorization x).Dialogue turns reply) {call : ProxyCall}
    {answer : call.Ans} (hcall : .await call answer ∈ turns) :
    Authorized apiKey authorization ∧ ∃ guild, turns = [x.read guild, .await call answer] ∧
      x.target strLower guild = .call call := by
  rcases respond_cases h with ⟨rfl, -⟩ | ⟨hauthorized, outcome, hhandler, -⟩
  · cases hcall
  · refine ⟨hauthorized, ?_⟩
    cases attempted_of_handler hpost hhandler with
    | missing guild | mute guild =>
        exact absurd (List.mem_singleton.mp hcall).symm (read_ne_await x guild)
    | @called guild call' answer' htarget =>
        rcases List.mem_cons.mp hcall with hfirst | hlast
        · exact absurd hfirst.symm (read_ne_await x guild)
        · rw [List.mem_singleton] at hlast
          cases hlast
          exact ⟨guild, rfl, htarget⟩

/-- A client may repeat a request: every attempt that is answered 200 has posted the message once,
to the target that the cache told, and beyond these only attempts answered 500 or 503, or not at
all, may have posted it. -/
theorem deliveries_of_attempts (hposts : Posts posted) (hpost : x.isPost = true)
    {attempts : List Attempt}
    (h : ∀ a ∈ attempts, (respond strLower apiKey authorization x).Dialogue a.1 a.2) :
    attempts.countP (fun a => isConfirmed a.2) ≤ (attempts.flatMap Prod.fst).countP posted ∧
      (attempts.flatMap Prod.fst).countP posted ≤
        attempts.countP (fun a => isConfirmed a.2) + attempts.countP (fun a => isDoubtful a.2) ∧
      ∀ a ∈ attempts, ∀ call answer, .await call answer ∈ a.1 →
        Authorized apiKey authorization ∧ ∃ guild, a.1 = [x.read guild, .await call answer] ∧
          x.target strLower guild = .call call := by
  obtain ⟨hfew, hmany⟩ := posts_of_attempts hposts hpost h
  exact ⟨hfew, hmany, fun a ha call answer hcall => target_of_attempt hpost (h a ha) hcall⟩

end Deliveries

/-! ### Three attempts -/

/-- Every call that was not refused has posted its message. -/
def postedUnlessRefused : ProxyTurn → Bool
  | .op _ _ => false
  | .await call answer => call.isSend && (call.raised answer).all fun exc => !isRefusal exc

theorem posts_postedUnlessRefused : Posts postedUnlessRefused where
  op _ _ := rfl
  accepted call answer hsend haccepted := by
    rw [postedUnlessRefused, hsend, haccepted]
    rfl
  refused call answer exc hraised hrefusal := by
    rw [postedUnlessRefused, hraised, Option.all_some, hrefusal]
    exact Bool.and_false _

/-- `Authorization: Bearer secret` -/
def bearerSecret : HeaderText := ⟨"Bearer secret".toList, by simp⟩

/-- The channel of the example. -/
def siegeChannel : CachedChannel := ⟨7, "siege", true⟩

/-- The channel is there from the second attempt on, and the second answer of Discord is late. -/
def siegeAttempts : List Attempt :=
  [([.op .guildChannels []], some ⟨404, .detail "Channel not found in guild"⟩),
    ([.op .guildChannels [siegeChannel], .await (.channelSend 7 "Day 1") (.error .timeout)],
      some ⟨503, .detail "Discord temporarily unavailable"⟩),
    ([.op .guildChannels [siegeChannel], .await (.channelSend 7 "Day 1") (.ok ())],
      some ⟨200, .sent⟩)]

theorem siegeAttempts_dialogue : ∀ a ∈ siegeAttempts,
    (respond id secretKey (some bearerSecret) (.postMessage "siege" "Day 1")).Dialogue a.1 a.2 := by
  have hkey : requireBearer secretKey (some bearerSecret) = .ok () := rfl
  unfold respond
  rw [hkey]
  intro a ha
  simp only [siegeAttempts, List.mem_cons, List.not_mem_nil, or_false] at ha
  rcases ha with rfl | rfl | rfl
  · exact ⟨[], _, rfl, rfl, rfl⟩
  · exact ⟨[siegeChannel], _, rfl, .error .timeout, _, rfl, rfl, rfl⟩
  · exact ⟨[siegeChannel], _, rfl, .ok (), _, rfl, rfl, rfl⟩

/-- One message is confirmed, and two were posted. -/
theorem deliveries_of_attempts_siege :
    siegeAttempts.countP (fun a => isConfirmed a.2) = 1 ∧
      (siegeAttempts.flatMap Prod.fst).countP postedUnlessRefused = 2 ∧
      (siegeAttempts.flatMap Prod.fst).countP postedUnlessRefused ≤
        siegeAttempts.countP (fun a => isConfirmed a.2) +
          siegeAttempts.countP (fun a => isDoubtful a.2) :=
  ⟨rfl, rfl, (deliveries_of_attempts posts_postedUnlessRefused rfl siegeAttempts_dialogue).2.1⟩

end MomBot.Sidecar
