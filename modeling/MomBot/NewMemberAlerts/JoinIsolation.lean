import MomBot.NewMemberAlerts.MemberJoin
import MomBot.NewMemberAlerts.Service

/-!
# What a failure does to the alerts of a join

The three stages of `on_member_join` are meant not to touch each other, and no officer's DM the
next one.  The first stage and the query catch every exception.  The calls of the welcome message
and the DMs are in handlers for `discord.HTTPException`, and anything else that Discord or the
network raises leaves the handler: the officers that are still to come hear nothing.

`Alerted` is what the loop is to look like from outside, `Isolated` what a stage before it is to
do, and `onMemberJoin_announces_iff` says when the whole event comes to its end.
-/

namespace MomBot.NewMemberAlerts

open Cooperative Coroutine Python

/-- A turn of the listener. -/
abbrev JoinTurn := Turn joinEffects

/-! ## What is raised -/

/-- What an answer of an operation raises. -/
def JoinOp.raised : (o : JoinOp) → o.Res → Option Raised
  | .utcNow, _ | .getChannel _, _ | .getMember _, _ => none
  | .recordJoin _ _ _, answer => exceptionOf answer
  | .loadSecret _, answer => exceptionOf answer
  | .listSubscriberIds _, answer => exceptionOf answer

/-- What an answer of a call raises. -/
def JoinCall.raised : (call : JoinCall) → call.Ans → Option Raised
  | .fetchChannel _, answer => exceptionOf answer
  | .channelSend _ _, answer => exceptionOf answer
  | .memberSend _ _, answer => exceptionOf answer

instance : Raises joinEffects := ⟨JoinOp.raised, JoinCall.raised⟩

/-- A call raised what is no `discord.HTTPException`, or a subscriber's id is no number. -/
def Unguarded : JoinTurn → Prop
  | .await call answer => ∃ exc ∈ call.raised answer, exc.isHttpException = false
  | .op (.listSubscriberIds _) (.ok subscriberIds) => ∃ userId ∈ subscriberIds, int userId = none
  | .op _ _ => False

/-- Nothing was raised where no handler catches it. -/
def Guarded (turns : List JoinTurn) : Prop := ∀ turn ∈ turns, ¬ Unguarded turn

/-- The list of the subscribers could not be read. -/
def QueryFails : JoinTurn → Prop
  | .op (.listSubscriberIds _) (.error _) => True
  | .op _ _ | .await _ _ => False

/-- The officer that a turn writes to. -/
def recipient : JoinTurn → Option ℤ
  | .await (.memberSend userId _) _ => some userId
  | _ => none

/-- The subscriber that a turn looks up. -/
def lookup : JoinTurn → Option ℤ
  | .op (.getMember userId) _ => some userId
  | _ => none

/-- The list of the subscribers, as a turn has read it. -/
def listing : JoinTurn → Option (List String)
  | .op (.listSubscriberIds _) (.ok subscriberIds) => some subscriberIds
  | _ => none

/-! ## From outside -/

section Turns

variable (member : JoinedMember)

/-- A subscriber was or was not in the cache. -/
abbrev lookedUp (userId : ℤ) (officer : Option Officer) : JoinTurn :=
  .op (.getMember userId) officer

/-- What the DM to an officer was answered. -/
abbrev written (userId : ℤ) (outcome : Outcome) : JoinTurn :=
  .await (.memberSend userId (alertText member)) outcome

/-- What the query for the subscribers was answered. -/
abbrev listed (guildId : String) (answer : Except Raised (List String)) : JoinTurn :=
  .op (.listSubscriberIds guildId) answer

end Turns

/-- One subscriber: looked up, and written to once if they are in the guild and may manage it. -/
inductive Seen (member : JoinedMember) : String → List JoinTurn → Prop
  | unresolved {userId : String} {id : ℤ} : int userId = some id →
      Seen member userId [lookedUp id none]
  | unauthorized {userId : String} {id : ℤ} {officer : Officer} : int userId = some id →
      officer.manageGuild = false → Seen member userId [lookedUp id (some officer)]
  | alerted {userId : String} {id : ℤ} {officer : Officer} (outcome : Outcome) :
      int userId = some id → officer.manageGuild = true →
      Seen member userId [lookedUp id (some officer), written member id outcome]

/-- All of them, in the order of the list. -/
inductive Alerted (member : JoinedMember) : List String → List JoinTurn → Prop
  | nil : Alerted member [] []
  | cons {userId : String} {rest : List String} {first turns : List JoinTurn} :
      Seen member userId first → Alerted member rest turns →
      Alerted member (userId :: rest) (first ++ turns)

/-- Nobody is written to before the subscribers are listed, and then all of them are seen to. -/
def Announced (member : JoinedMember) (turns : List JoinTurn) : Prop :=
  ∃ before subscriberIds after,
    turns = before ++ listed (toString member.guildId) (.ok subscriberIds) :: after ∧
      (∀ turn ∈ before, recipient turn = none) ∧ Alerted member subscriberIds after

section Subscribers

variable {member : JoinedMember} {userId : String} {subscriberIds : List String}
  {turns : List JoinTurn}

theorem Seen.lookups (h : Seen member userId turns) :
    turns.filterMap lookup = [userId].filterMap int := by
  cases h with
  | unresolved hnumber => rw [List.filterMap_cons_some hnumber]; rfl
  | unauthorized hnumber _ => rw [List.filterMap_cons_some hnumber]; rfl
  | alerted _ hnumber _ => rw [List.filterMap_cons_some hnumber]; rfl

theorem Seen.recipients (h : Seen member userId turns) :
    (turns.filterMap recipient).Sublist (turns.filterMap lookup) := by
  cases h with
  | unresolved _ => exact List.nil_sublist _
  | unauthorized _ _ => exact List.nil_sublist _
  | alerted _ _ _ => exact List.Sublist.refl _

theorem Alerted.lookups (h : Alerted member subscriberIds turns) :
    turns.filterMap lookup = subscriberIds.filterMap int := by
  induction h with
  | nil => rfl
  | @cons userId rest first turns hseen _ ih =>
      rw [List.filterMap_append, hseen.lookups, ih]
      exact List.filterMap_append.symm

theorem Alerted.recipients (h : Alerted member subscriberIds turns) :
    (turns.filterMap recipient).Sublist (turns.filterMap lookup) := by
  induction h with
  | nil => exact List.nil_sublist _
  | cons hseen _ ih =>
      rw [List.filterMap_append, List.filterMap_append]
      exact hseen.recipients.append ih

/-- Nobody gets two DMs where the rows are the command's. -/
theorem Alerted.nodup_recipients {commands : List SubscriptionTable.Toggle} {guildId : String}
    (h : Alerted member ((SubscriptionTable.run commands).listSubscriberIds guildId) turns) :
    (turns.filterMap recipient).Nodup := by
  obtain ⟨-, hdistinct⟩ := SubscriptionTable.listSubscriberIds_run commands guildId
  have hids : (turns.filterMap lookup).Nodup := by
    rw [h.lookups, ← Function.id_comp int, ← List.filterMap_map]
    apply hdistinct.filterMap
    intro officer other id hofficer hother
    exact (Option.mem_def.mp hofficer).trans (Option.mem_def.mp hother).symm
  exact h.recipients.nodup hids

/-- All of a list are looked up. -/
theorem Announced.lookups (h : Announced member turns) :
    ∃ subscriberIds ∈ turns.filterMap listing,
      (subscriberIds.filterMap int).Sublist (turns.filterMap lookup) := by
  obtain ⟨before, subscriberIds, after, rfl, -, halerted⟩ := h
  refine ⟨subscriberIds, ?_, ?_⟩
  · apply List.mem_filterMap.mpr
    exact ⟨listed (toString member.guildId) (.ok subscriberIds), by simp, rfl⟩
  · rw [← halerted.lookups, List.filterMap_append]
    exact List.sublist_append_right _ _

end Subscribers

/-! ## Stages -/

section Stages

variable {α β : Type} {turns first second : List JoinTurn} {turn : JoinTurn}

theorem guarded_cons : Guarded (turn :: turns) ↔ ¬ Unguarded turn ∧ Guarded turns :=
  List.forall_mem_cons

theorem guarded_singleton : Guarded [turn] ↔ ¬ Unguarded turn :=
  List.forall_mem_singleton

theorem guarded_append : Guarded (first ++ second) ↔ Guarded first ∧ Guarded second :=
  List.forall_mem_append

/-- A stage that writes to no officer, and comes to its end exactly if it meets nothing
unguarded. -/
abbrev Isolated (p : JoinM α) : Prop :=
  Contained (raised · ≠ some .cancelled) (¬ Unguarded ·) (recipient · = none) p

/-- A body that `except Exception` lets nothing out of. -/
abbrev Inner (p : JoinM α) : Prop :=
  Caught (raised · ≠ some .cancelled) (¬ Unguarded ·) (recipient · = none) Raised.isException p

theorem isolated_perform {o : JoinOp} (hquiet : ∀ answer, ¬ Unguarded (.op o answer)) :
    Isolated (ExceptT.lift (perform (E := joinEffects) o)) := by
  intro turns result h _
  obtain ⟨answer, rest, rfl, rfl, rfl⟩ := h
  refine ⟨iff_of_true ⟨answer, rfl⟩ ?_, ?_⟩
  · exact guarded_cons.mpr ⟨hquiet answer, List.forall_mem_nil _⟩
  · exact List.forall_mem_singleton.mpr rfl

theorem inner_requireSessionFactory (bot : Bot) : Inner (requireSessionFactory bot) := by
  unfold requireSessionFactory
  split
  next => exact caught_pure ()
  next => exact caught_throw rfl

theorem inner_intOrRaise (text : String) : Inner (intOrRaise text) := by
  unfold intOrRaise
  split
  next => exact caught_pure _
  next => exact caught_throw rfl

/-- Of one answer. -/
theorem inner_of_turn {p : JoinM α}
    (h : ∀ turns result, p.run.Dialogue turns result →
      ∃ turn, turns = [turn] ∧ ¬ Unguarded turn ∧ recipient turn = none ∧
        raised turn = exceptionOf result) :
    Inner p := by
  intro turns result hdialogue hturns
  obtain ⟨turn, rfl, hguarded, hquiet, hraised⟩ := h turns result hdialogue
  refine ⟨List.forall_mem_singleton.mpr ⟨hguarded, hquiet⟩, fun exc hexc => ?_⟩
  apply Raised.isException_iff.mpr
  intro hcancelled
  apply hturns turn (List.mem_singleton_self turn)
  rw [hraised, hexc, hcancelled]
  rfl

theorem inner_utcNow : Inner utcNow := by
  apply inner_of_turn
  intro turns result h
  obtain ⟨now, _, rfl, rfl, rfl⟩ := h
  exact ⟨_, rfl, id, rfl, rfl⟩

theorem inner_recordJoin (guildId memberId joinedAt : ℤ) :
    Inner (recordJoin guildId memberId joinedAt) := by
  apply inner_of_turn
  intro turns result h
  exact ⟨_, dialogue_perform.mp h, id, rfl, rfl⟩

theorem inner_loadSecret (name : String) : Inner (loadSecret name) := by
  apply inner_of_turn
  intro turns result h
  exact ⟨_, dialogue_perform.mp h, id, rfl, rfl⟩

theorem isolated_recordStage (bot : Bot) (member : JoinedMember) :
    Isolated (recordStage bot member) := by
  apply Caught.contained
  apply (inner_requireSessionFactory bot).bind
  intro _
  apply inner_utcNow.bind
  intro joinedAt
  exact inner_recordJoin _ _ joinedAt

theorem isolated_welcomeChannelId : Isolated welcomeChannelId := by
  apply Caught.contained
  apply (inner_loadSecret channelSecret).bind
  intro text
  apply (inner_intOrRaise text).bind
  intro channelId
  exact caught_pure _

theorem handled_ok_iff {outcome : Except Raised α} {catches : Raised → Bool} {value : α} :
    (∃ v, handled catches value outcome = .ok v) ↔
      ∀ exc ∈ exceptionOf outcome, catches exc = true := by
  cases outcome with
  | ok v => simp [handled, exceptionOf]
  | error exc => by_cases hexc : catches exc = true <;> simp [handled, exceptionOf, hexc]

/-- A call in a handler for `discord.HTTPException`. -/
theorem handled_call_iff (call : JoinCall) (answer : call.Ans) {outcome : Except Raised α}
    {value : α} (h : call.raised answer = exceptionOf outcome) :
    (∃ v, handled Raised.isHttpException value outcome = .ok v) ↔
      Guarded [.await call answer] := by
  rw [handled_ok_iff, ← h, guarded_singleton]
  simp [Unguarded]

theorem isolated_fetchChannel (channelId : ℤ) :
    Isolated (catching Raised.isHttpException
      (do
        let channel ← fetchChannel channelId
        return some channel)
      fun _ => return none) := by
  intro turns result h _
  obtain ⟨outcome, hbody, rfl⟩ := dialogue_catching_pure.mp h
  obtain ⟨answer, rfl, heq⟩ : ∃ answer,
      turns = [.await (.fetchChannel channelId) answer] ∧
        exceptionOf answer = exceptionOf outcome := by
    cases outcome with
    | ok v =>
        obtain ⟨channel, hfetch, -⟩ := dialogue_map_ok.mp hbody
        exact ⟨_, dialogue_request.mp hfetch, rfl⟩
    | error exc => exact ⟨_, dialogue_request.mp (dialogue_map_error.mp hbody), rfl⟩
  exact ⟨handled_call_iff (.fetchChannel channelId) answer heq, List.forall_mem_singleton.mpr rfl⟩

theorem isolated_resolveChannel (channelId : ℤ) : Isolated (resolveChannel channelId) := by
  apply (isolated_perform fun _ => id).bind
  intro cached
  cases cached with
  | some channel => exact contained_pure _
  | none => exact isolated_fetchChannel channelId

theorem isolated_sendToChannel (member : JoinedMember) (channel : Channel) :
    Isolated (sendToChannel member channel) := by
  unfold sendToChannel
  split
  next =>
    intro turns result h _
    obtain ⟨outcome, hsend, rfl⟩ := dialogue_catching_pure.mp h
    obtain rfl := dialogue_request.mp hsend
    exact ⟨handled_call_iff (.channelSend channel.id (welcomeText member)) outcome rfl,
      List.forall_mem_singleton.mpr rfl⟩
  next => exact contained_pure ()

theorem isolated_sendWelcomeMessage (member : JoinedMember) :
    Isolated (sendWelcomeMessage member) := by
  apply isolated_welcomeChannelId.bind
  intro channelId
  cases channelId with
  | none => exact contained_pure ()
  | some channelId =>
      apply (isolated_resolveChannel channelId).bind
      intro channel
      cases channel with
      | none => exact contained_pure ()
      | some channel => exact isolated_sendToChannel member channel

end Stages

/-! ## The loop -/

section Loop

variable {bot : Bot} {member : JoinedMember} {turns : List JoinTurn}
  {result : Except Raised Unit}

theorem sendAlert_cases {userId : String} {officerId : ℤ} {officer : Option Officer}
    (hnumber : int userId = some officerId)
    (h : (sendAlert member officerId officer).run.Dialogue turns result) :
    (result = .ok () ∧ Seen member userId (lookedUp officerId officer :: turns) ∧ Guarded turns) ∨
      (∃ exc, result = .error exc) ∧ ¬ Guarded turns := by
  cases officer with
  | none =>
      obtain ⟨rfl, rfl⟩ := dialogue_pure_raising.mp h
      exact .inl ⟨rfl, .unresolved hnumber, List.forall_mem_nil _⟩
  | some officer =>
      rw [sendAlert] at h
      split at h
      next hmanages =>
        obtain ⟨outcome, hsend, rfl⟩ := dialogue_catching_pure.mp h
        obtain rfl := dialogue_request.mp hsend
        have hends : (∃ v, handled Raised.isHttpException () outcome = .ok v) ↔ _ :=
          handled_call_iff (.memberSend officerId (alertText member)) outcome rfl
        cases hresult : handled Raised.isHttpException () outcome with
        | ok v => exact .inl ⟨rfl, .alerted outcome hnumber hmanages, hends.mp ⟨v, hresult⟩⟩
        | error exc =>
            refine .inr ⟨⟨exc, rfl⟩, ?_⟩
            rw [← hends, hresult]
            simp
      next hmanages =>
        obtain ⟨rfl, rfl⟩ := dialogue_pure_raising.mp h
        have hforbidden : officer.manageGuild = false := Bool.eq_false_iff.mpr hmanages
        exact .inl ⟨rfl, .unauthorized hnumber hforbidden, List.forall_mem_nil _⟩

/-- **One officer.** -/
theorem alertOfficer_cases {userId : String}
    (h : (alertOfficer member userId).run.Dialogue turns result) :
    (result = .ok () ∧ Seen member userId turns ∧ Guarded turns ∧ int userId ≠ none) ∨
      (∃ exc, result = .error exc) ∧ (int userId = none ∨ ¬ Guarded turns) := by
  unfold alertOfficer intOrRaise at h
  cases hnumber : int userId with
  | none =>
      rw [hnumber] at h
      obtain ⟨-, rfl⟩ := h
      exact .inr ⟨⟨_, rfl⟩, .inl rfl⟩
  | some officerId =>
      rw [hnumber] at h
      obtain ⟨officer, rest, rfl, hrest⟩ := h
      obtain ⟨hok, hseen, hguarded⟩ | ⟨herror, hescapes⟩ := sendAlert_cases hnumber hrest
      · exact .inl ⟨hok, hseen, guarded_cons.mpr ⟨id, hguarded⟩, by simp⟩
      · exact .inr ⟨herror, .inr fun hguarded => hescapes (guarded_cons.mp hguarded).2⟩

/-- **All officers**, by induction on the list. -/
theorem alertOfficers_cases {subscriberIds : List String}
    (h : (alertOfficers member subscriberIds).run.Dialogue turns result) :
    (result = .ok () ∧ Alerted member subscriberIds turns ∧ Guarded turns ∧
        ∀ userId ∈ subscriberIds, int userId ≠ none) ∨
      (∃ exc, result = .error exc) ∧
        ((∃ userId ∈ subscriberIds, int userId = none) ∨ ¬ Guarded turns) := by
  induction subscriberIds generalizing turns with
  | nil =>
      obtain ⟨rfl, rfl⟩ := dialogue_pure_raising.mp h
      exact .inl ⟨rfl, .nil, List.forall_mem_nil _, List.forall_mem_nil _⟩
  | cons userId rest ih =>
      obtain ⟨exc, hfirst, rfl⟩ | ⟨first, _, later, rfl, hfirst, hlater⟩ :=
        dialogue_bind_raising.mp h
      · obtain ⟨hok, -⟩ | ⟨-, hescapes⟩ := alertOfficer_cases hfirst
        · cases hok
        · exact .inr ⟨⟨exc, rfl⟩, hescapes.imp_left fun hnone =>
            ⟨userId, List.mem_cons_self, hnone⟩⟩
      · obtain ⟨-, hseen, hguarded, hnumber⟩ | ⟨⟨_, herror⟩, -⟩ := alertOfficer_cases hfirst
        · obtain ⟨hok, halerted, hguarded', hnumbers⟩ | ⟨herror, hescapes⟩ := ih hlater
          · exact .inl ⟨hok, .cons hseen halerted, guarded_append.mpr ⟨hguarded, hguarded'⟩,
              List.forall_mem_cons.mpr ⟨hnumber, hnumbers⟩⟩
          · refine .inr ⟨herror, hescapes.imp ?_ fun hlater hall => ?_⟩
            · rintro ⟨other, hother, hnone⟩
              exact ⟨other, List.mem_cons_of_mem userId hother, hnone⟩
            · exact hlater (guarded_append.mp hall).2
        · cases herror

/-! ## The event -/

theorem querySubscribers_cases {guildId : ℤ} {subscriberIds : Except Raised (Option (List String))}
    (hfactory : bot.hasSessionFactory = true)
    (h : (querySubscribers bot guildId).run.Dialogue turns subscriberIds)
    (hquery : ∀ turn ∈ turns, ¬ QueryFails turn) :
    ∃ ids, turns = [listed (toString guildId) (.ok ids)] ∧ subscriberIds = .ok (some ids) := by
  unfold querySubscribers requireSessionFactory at h
  rw [if_pos hfactory] at h
  obtain ⟨outcome, hbody, rfl⟩ := dialogue_catching_pure.mp h
  obtain ⟨answer, rest, rfl, hrest⟩ := hbody
  cases answer with
  | ok ids =>
      obtain ⟨rfl, rfl⟩ := hrest
      exact ⟨ids, rfl, rfl⟩
  | error exc => exact absurd trivial (hquery _ List.mem_cons_self)

theorem announce_cases (hfactory : bot.hasSessionFactory = true)
    (h : (announce bot member member.guildId).run.Dialogue turns result)
    (hturns : Uncancelled turns) (hquery : ∀ turn ∈ turns, ¬ QueryFails turn) :
    (result = .ok () ∧ Announced member turns ∧ Guarded turns) ∨
      (∃ exc, result = .error exc) ∧ ¬ Guarded turns := by
  obtain ⟨hresult, hescapes, -⟩ | ⟨first, _, _, rfl, hguarded₁, hquiet₁, h₁⟩ :=
    (isolated_recordStage bot member).cut h hturns
  · exact .inr ⟨hresult, hescapes⟩
  obtain ⟨hresult, hescapes, -⟩ | ⟨second, _, third, rfl, hguarded₂, hquiet₂, h₂⟩ :=
    (isolated_sendWelcomeMessage member).cut h₁ (uncancelled_append.mp hturns).2
  · exact .inr ⟨hresult, fun hall => hescapes (guarded_append.mp hall).2⟩
  rw [List.forall_mem_append, List.forall_mem_append] at hquery
  obtain ⟨exc, hlist, rfl⟩ | ⟨_, answer, later, rfl, hlist, hlater⟩ :=
    dialogue_bind_raising.mp h₂
  · obtain ⟨_, -, hok⟩ := querySubscribers_cases hfactory hlist hquery.2.2
    cases hok
  rw [List.forall_mem_append] at hquery
  obtain ⟨subscriberIds, rfl, hok⟩ := querySubscribers_cases hfactory hlist hquery.2.2.1
  obtain rfl := Except.ok.inj hok
  obtain ⟨rfl, halerted, hguarded₃, hnumbers⟩ | ⟨herror, hescapes⟩ := alertOfficers_cases hlater
  · refine .inl ⟨rfl, ?_, ?_⟩
    · refine ⟨first ++ second, subscriberIds, later, ?_, ?_, halerted⟩
      · rw [List.append_assoc]
        rfl
      · exact List.forall_mem_append.mpr ⟨hquiet₁, hquiet₂⟩
    · refine guarded_append.mpr ⟨hguarded₁, guarded_append.mpr ⟨hguarded₂, ?_⟩⟩
      refine guarded_cons.mpr ⟨?_, hguarded₃⟩
      rintro ⟨userId, huser, hnone⟩
      exact hnumbers userId huser hnone
  · refine .inr ⟨herror, fun hall => ?_⟩
    obtain ⟨-, hall⟩ := guarded_append.mp hall
    obtain ⟨hlisted, hall⟩ := guarded_cons.mp (guarded_append.mp hall).2
    rcases hescapes with hnone | hescapes
    · exact hlisted hnone
    · exact hescapes hall

/-- Whatever is answered, the handler comes to an end. -/
theorem onMemberJoin_returns (reply : (o : JoinOp) → o.Res) (answer : (call : JoinCall) → call.Ans)
    (bot : Bot) (member : JoinedMember) :
    ∃ turns result, (onMemberJoin bot member).run.Dialogue turns result ∧
      ∀ turn ∈ turns, turn.Follows reply answer :=
  exists_dialogue reply answer (onMemberJoin bot member).run

/-- A human who joins the configured guild is announced to every officer, and nothing is raised,
exactly as long as the calls raise nothing but `discord.HTTPException` and the ids are numbers. -/
theorem onMemberJoin_announces_iff (hhuman : member.bot = false)
    (hguild : bot.guildId = some member.guildId) (hfactory : bot.hasSessionFactory = true)
    (h : (onMemberJoin bot member).run.Dialogue turns result) (hturns : Uncancelled turns)
    (hquery : ∀ turn ∈ turns, ¬ QueryFails turn) :
    (result = .ok () ∧ Announced member turns) ↔ ∀ turn ∈ turns, ¬ Unguarded turn := by
  have hnot : ¬ member.guildId ≠ member.guildId := by simp
  have hannounce : (announce bot member member.guildId).run.Dialogue turns result := by
    rw [onMemberJoin, hhuman, hguild] at h
    simpa only [Bool.false_eq_true, if_false, if_neg hnot] using h
  constructor
  · intro hends
    obtain ⟨-, -, hguarded⟩ | ⟨⟨_, herror⟩, -⟩ :=
      announce_cases hfactory hannounce hturns hquery
    · exact hguarded
    · exact absurd (hends.1.symm.trans herror) (by simp)
  · intro hguarded
    obtain ⟨hok, hannounced, -⟩ | ⟨-, hescapes⟩ :=
      announce_cases hfactory hannounce hturns hquery
    · exact ⟨hok, hannounced⟩
    · exact absurd hguarded hescapes

end Loop

/-! ## A timeout -/

/-- The bot of guild 1, with its service. -/
def joiningBot : Bot := ⟨some 1, true⟩

/-- The user 100 joins. -/
def newcomer : JoinedMember := ⟨100, 1, false⟩

/-- The row is not written, and the welcome channel is gone. -/
def roughStages : List JoinTurn :=
  [.op .utcNow (0 : ℤ), .op (.recordJoin 1 100 0) (.error .unexpected),
    .op (.loadSecret channelSecret) (.ok "42"), .op (.getChannel 42) none,
    .await (.fetchChannel 42) (.error .notFound)]

/-- Three officers are subscribed. -/
def threeOfficers : List JoinTurn :=
  [.op (.listSubscriberIds (toString (1 : ℤ))) (.ok ["7", "8", "9"])]

/-- The first officer takes no DMs, the second has left. -/
def roughAlerts : List JoinTurn :=
  [lookedUp 7 (some ⟨true⟩), written newcomer 7 (.error .forbidden), lookedUp 8 none,
    lookedUp 9 (some ⟨true⟩), written newcomer 9 (.ok ())]

theorem roughJoin_dialogue :
    (onMemberJoin joiningBot newcomer).run.Dialogue (roughStages ++ threeOfficers ++ roughAlerts)
      (.ok ()) :=
  ⟨(0 : ℤ), _, rfl, .error .unexpected, _, rfl, .ok "42", _, rfl, none, _, rfl,
    .error .notFound, _, rfl, .ok ["7", "8", "9"], _, rfl, some ⟨true⟩, _, rfl,
    .error .forbidden, _, rfl, none, _, rfl, some ⟨true⟩, _, rfl, .ok (), _, rfl, rfl, rfl⟩

theorem roughJoin_uncancelled : Uncancelled (roughStages ++ threeOfficers ++ roughAlerts) := by
  decide

/-- All three officers are seen to. -/
theorem onMemberJoin_announces_iff_rough :
    ((Except.ok () : Except Raised Unit) = .ok () ∧
        Announced newcomer (roughStages ++ threeOfficers ++ roughAlerts)) ↔
      ∀ turn ∈ roughStages ++ threeOfficers ++ roughAlerts, ¬ Unguarded turn :=
  onMemberJoin_announces_iff rfl rfl rfl roughJoin_dialogue roughJoin_uncancelled (by
    simp [roughStages, threeOfficers, roughAlerts, QueryFails])

/-- The DM to the first officer is not sent in time. -/
def timeoutAlerts : List JoinTurn :=
  [lookedUp 7 (some ⟨true⟩), written newcomer 7 (.error .timeout)]

/-- The timeout leaves the handler, and nobody comes to the other two. -/
theorem onMemberJoin_timeout_escapes :
    (onMemberJoin joiningBot newcomer).run.Dialogue (roughStages ++ threeOfficers ++ timeoutAlerts)
        (.error .timeout) ∧
      Uncancelled (roughStages ++ threeOfficers ++ timeoutAlerts) ∧
      (∀ turn ∈ roughStages ++ threeOfficers ++ timeoutAlerts, ¬ QueryFails turn) ∧
      (roughStages ++ threeOfficers ++ timeoutAlerts).filterMap recipient = [7] ∧
      ¬ Announced newcomer (roughStages ++ threeOfficers ++ timeoutAlerts) := by
  refine ⟨?_, by decide, ?_, rfl, ?_⟩
  · exact ⟨(0 : ℤ), _, rfl, .error .unexpected, _, rfl, .ok "42", _, rfl, none, _, rfl,
      .error .notFound, _, rfl, .ok ["7", "8", "9"], _, rfl, some ⟨true⟩, _, rfl,
      .error .timeout, _, rfl, rfl, rfl⟩
  · simp [roughStages, threeOfficers, timeoutAlerts, QueryFails]
  · intro hannounced
    obtain ⟨subscriberIds, hlisted, hsublist⟩ := hannounced.lookups
    obtain rfl : subscriberIds = ["7", "8", "9"] := List.mem_singleton.mp hlisted
    have hlength : 3 ≤ 1 := hsublist.length_le
    omega

end MomBot.NewMemberAlerts
