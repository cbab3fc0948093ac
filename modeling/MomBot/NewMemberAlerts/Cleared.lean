import MomBot.Cooperative.Watch
import MomBot.NewMemberAlerts.Alerts
import MomBot.NewMemberAlerts.Subscribers

/-!
# Who sets a subscription, and who is written to

A task is followed from its start to some moment of its life, while any other commands and joins
come and go.  Before it sets a subscription the gate has read its invoker's permission, and nothing
has been awaited since.  Before it writes to an officer it has found him to hold the permission,
again with nothing awaited since; that he is subscribed the table has said earlier, at the moment
when the task asked it for the list (`Listing`, `cleared_of_leads`).
-/

namespace MomBot.NewMemberAlerts

open Cooperative Coroutine Python
open SubscriptionTable (Toggle run)

/-- What the stage of a task means. -/
structure Means (t : Stage) (w : AlertOffice) : Prop where
  table : w.table = run w.commands
  granted : ∀ userId, t.granted = some userId → w.invoker userId = some true
  cleared : ∀ id, t.cleared = some id → w.members id = some ⟨true⟩

section Means

variable {t : Stage} {w : AlertOffice}

/-- Nothing has just been looked up. -/
def Stage.IsAwaited (t : Stage) : Prop := t.granted = none ∧ t.cleared = none

theorem isAwaited_awaited (t : Stage) : t.awaited.IsAwaited := ⟨rfl, rfl⟩

/-- Of a stage in which nothing has just been looked up only the table counts. -/
theorem means_of_isAwaited (ht : t.IsAwaited) (htable : w.table = run w.commands) : Means t w where
  table := htable
  granted userId hgranted := by
    rw [ht.1] at hgranted
    cases hgranted
  cleared id hcleared := by
    rw [ht.2] at hcleared
    cases hcleared

theorem Means.awaited (h : Means t w) : Means t.awaited w :=
  means_of_isAwaited (isAwaited_awaited t) h.table

/-- What an operation leaves of the table and of the commands. -/
theorem table_exec (o : AlertOp) (htable : w.table = run w.commands) :
    (AlertOffice.exec o w).2.table = run (AlertOffice.exec o w).2.commands ∧
      w.commands <+: (AlertOffice.exec o w).2.commands := by
  cases o with
  | join o => exact ⟨htable, List.prefix_rfl⟩
  | manageGuild userId => exact ⟨htable, List.prefix_rfl⟩
  | setSubscription command =>
      show (w.take command).2.table = run (w.take command).2.commands ∧
        w.commands <+: (w.take command).2.commands
      unfold AlertOffice.take
      split
      next =>
        refine ⟨?_, List.prefix_append _ _⟩
        rw [SubscriptionTable.run_concat, ← htable]
      next => exact ⟨htable, List.prefix_rfl⟩

/-- Only the table and its commands are ever written. -/
theorem lookups_exec (o : AlertOp) (w : AlertOffice) :
    (AlertOffice.exec o w).2.invoker = w.invoker ∧
      (AlertOffice.exec o w).2.members = w.members := by
  cases o with
  | join o => exact ⟨rfl, rfl⟩
  | manageGuild userId => exact ⟨rfl, rfl⟩
  | setSubscription command =>
      show (w.take command).2.invoker = w.invoker ∧ (w.take command).2.members = w.members
      unfold AlertOffice.take
      split <;> exact ⟨rfl, rfl⟩

/-! ### What the operations tell -/

theorem granted_afterJoinOp (o : JoinOp) (r : o.Res) :
    (t.afterJoinOp o r).granted = t.granted := by
  unfold Stage.afterJoinOp
  split <;> rfl

/-- The gate's look is about the permission only. -/
theorem afterOp_manageGuild (userId : ℕ) (r : Except Raised Bool) :
    (t.afterOp (.manageGuild userId) r).listed = t.listed ∧
      (t.afterOp (.manageGuild userId) r).cleared = t.cleared := by
  match r with
  | .error _ => exact ⟨rfl, rfl⟩
  | .ok true => exact ⟨rfl, rfl⟩
  | .ok false => exact ⟨rfl, rfl⟩

theorem listed_getMember (userId : ℤ) (found : Option Officer) :
    (t.afterJoinOp (.getMember userId) found).listed = t.listed := by
  match found with
  | none => rfl
  | some ⟨true⟩ => rfl
  | some ⟨false⟩ => rfl

theorem cleared_listing (guildId : String) (answer : Except Raised (List String)) :
    (t.afterJoinOp (.listSubscriberIds guildId) answer).cleared = t.cleared := by
  cases answer <;> rfl

theorem listed_listing {asked guildId : String} {userIds : List String}
    {answer : Except Raised (List String)}
    (h : (t.afterJoinOp (.listSubscriberIds asked) answer).listed = some (guildId, userIds)) :
    t.listed = some (guildId, userIds) ∨ asked = guildId ∧ answer = .ok userIds := by
  cases answer with
  | error exc => exact .inl h
  | ok found =>
      obtain ⟨rfl, rfl⟩ := Prod.mk.inj (Option.some.inj h)
      exact .inr ⟨rfl, rfl⟩

/-- A database that answers lists what the table holds. -/
theorem eq_of_ask {guildId : String} {userIds : List String}
    (h : w.ask (.listSubscriberIds guildId) = .ok userIds) :
    userIds = w.table.listSubscriberIds guildId := by
  have hlist : (if w.databaseAnswers then .ok (w.table.listSubscriberIds guildId)
    else .error .unexpected : Except Raised (List String)) = .ok userIds := h
  split at hlist
  next => exact (Except.ok.inj hlist).symm
  next => cases hlist

/-- The permission that the gate has read is there. -/
theorem granted_afterOp {o : AlertOp} {userId : ℕ}
    (h : (t.afterOp o (AlertOffice.exec o w).1).granted = some userId) :
    t.granted = some userId ∨ w.invoker userId = some true := by
  cases o with
  | join o => exact .inl ((granted_afterJoinOp o _).symm.trans h)
  | setSubscription command => exact .inl h
  | manageGuild asked =>
      have hread : (t.afterOp (.manageGuild asked) (w.permission asked)).granted = some userId := h
      unfold AlertOffice.permission at hread
      cases hheld : w.invoker asked with
      | none =>
          rw [hheld] at hread
          exact .inl hread
      | some held =>
          rw [hheld] at hread
          cases held with
          | false => exact .inl hread
          | true =>
              obtain rfl : asked = userId := Option.some.inj hread
              exact .inr hheld

/-- The list that the join has loaded is that of the table. -/
theorem listed_afterOp {o : AlertOp} {guildId : String} {userIds : List String}
    (h : (t.afterOp o (AlertOffice.exec o w).1).listed = some (guildId, userIds)) :
    t.listed = some (guildId, userIds) ∨ o = .join (.listSubscriberIds guildId) ∧
      userIds = w.table.listSubscriberIds guildId := by
  cases o with
  | setSubscription command => exact .inl h
  | manageGuild asked => exact .inl ((afterOp_manageGuild asked _).1.symm.trans h)
  | join o =>
      cases o with
      | getMember asked => exact .inl ((listed_getMember asked _).symm.trans h)
      | utcNow | recordJoin | loadSecret | getChannel => exact .inl h
      | listSubscriberIds asked =>
          rcases listed_listing h with hbefore | ⟨rfl, hanswer⟩
          · exact .inl hbefore
          · exact .inr ⟨rfl, eq_of_ask hanswer⟩

/-- The officer whom the join has looked up holds the permission. -/
theorem cleared_afterOp {o : AlertOp} {id : ℤ}
    (h : (t.afterOp o (AlertOffice.exec o w).1).cleared = some id) :
    t.cleared = some id ∨ w.members id = some ⟨true⟩ := by
  cases o with
  | setSubscription command => exact .inl h
  | manageGuild asked => exact .inl ((afterOp_manageGuild asked _).2.symm.trans h)
  | join o =>
      cases o with
      | listSubscriberIds asked => exact .inl ((cleared_listing asked _).symm.trans h)
      | utcNow | recordJoin | loadSecret | getChannel => exact .inl h
      | getMember asked =>
          have hread : (t.afterJoinOp (.getMember asked) (w.members asked)).cleared = some id := h
          match hfound : w.members asked with
          | none =>
              rw [hfound] at hread
              cases hread
          | some ⟨false⟩ =>
              rw [hfound] at hread
              cases hread
          | some ⟨true⟩ =>
              rw [hfound] at hread
              obtain rfl : asked = id := Option.some.inj hread
              exact .inr hfound

/-- **Step lemma.**  The task's own operations keep what its stage means. -/
theorem Means.exec (h : Means t w) (o : AlertOp) :
    Means (t.afterOp o (AlertOffice.exec o w).1) (AlertOffice.exec o w).2 := by
  obtain ⟨hinvoker, hmembers⟩ := lookups_exec o w
  refine ⟨(table_exec o h.table).1, ?_, ?_⟩
  · intro userId hgranted
    rw [hinvoker]
    exact (granted_afterOp hgranted).elim (h.granted userId) fun hheld => hheld
  · intro id hcleared
    rw [hmembers]
    exact (cleared_afterOp hcleared).elim (h.cleared id) fun hheld => hheld

end Means

/-! ## Runs -/

section Runs

variable {ι : Type} {bot : Bot} {i : ι} {t : Stage}
  {c c₁ c₂ : Config alertEffects AlertOffice ι AlertTask (Except Raised Unit)}

/-- Everything switches only where the tasks await. -/
def AtAwaits (c : Config alertEffects AlertOffice ι AlertTask (Except Raised Unit))
    (event : Event alertEffects AlertOffice ι AlertTask) : Prop :=
  Concurrent.SwitchesAtAwaits c event ∧
    (event.isOutside = true → ∀ i, (c.task i).isReady = false)

instance [Fintype ι] [DecidableEq ι]
    (c : Config alertEffects AlertOffice ι AlertTask (Except Raised Unit))
    (event : Event alertEffects AlertOffice ι AlertTask) : Decidable (AtAwaits c event) :=
  inferInstanceAs (Decidable (_ ∧ (_ → _)))

/-- A task that is not ready has nothing just looked up. -/
theorem isAwaited_of_fits (hfits : (alerting bot).Fits Ends (c.task i) t)
    (hready : (c.task i).isReady = false) : t.IsAwaited := by
  cases htask : c.task i with
  | idle =>
      rw [htask] at hfits
      obtain rfl : t = .fresh := hfits
      exact ⟨rfl, rfl⟩
  | awaiting x call next =>
      rw [htask] at hfits
      obtain ⟨before, rfl, -⟩ := hfits
      exact isAwaited_awaited before
  | ready x rest =>
      rw [htask] at hready
      cases hready

variable [DecidableEq ι]

/-- While task `i` goes on. -/
def DuringTask (i : ι) (c : Config alertEffects AlertOffice ι AlertTask (Except Raised Unit))
    (event : Event alertEffects AlertOffice ι AlertTask) : Prop :=
  AtAwaits c event ∧ event.finishes i = false

instance [Fintype ι] (i : ι)
    (c : Config alertEffects AlertOffice ι AlertTask (Except Raised Unit))
    (event : Event alertEffects AlertOffice ι AlertTask) : Decidable (DuringTask i c event) :=
  inferInstanceAs (Decidable (_ ∧ _))

/-- While an event of another task or of the world is allowed, the task is not ready. -/
theorem not_ready_of_others {event : Event alertEffects AlertOffice ι AlertTask}
    (hallowed : AtAwaits c event) (hother : event.task? ≠ some i) : (c.task i).isReady = false := by
  cases hready : (c.task i).isReady with
  | false => rfl
  | true =>
      cases hevent : event.task? with
      | some j =>
          rw [hallowed.1.task?_eq hready hevent] at hevent
          exact absurd hevent hother
      | none =>
          cases event with
          | outside shared => exact (hallowed.2 rfl i).symm.trans hready |>.symm
          | spawn | op | issue | answer | finish => cases hevent

/-- The table is that of the commands it has taken, which only become more. -/
theorem table_of_step {event : Event alertEffects AlertOffice ι AlertTask}
    (hadmits : (alerts bot).Admits c event) (hstep : (alerts bot).step c event = some c₂)
    (htable : c.shared.table = run c.shared.commands) :
    c₂.shared.table = run c₂.shared.commands ∧ c.shared.commands <+: c₂.shared.commands := by
  cases Concurrent.happens_of_step hstep with
  | spawn | issue | answer | finish => exact ⟨htable, List.prefix_rfl⟩
  | op => exact table_exec _ htable
  | @outside shared =>
      obtain ⟨hsame, hcommands⟩ : AlertOffice.Elsewhere c.shared shared := hadmits
      refine ⟨?_, ?_⟩
      · show shared.table = run shared.commands
        rw [hsame, hcommands, htable]
      · show c.shared.commands <+: shared.commands
        exact hcommands ▸ List.prefix_rfl

/-- **Step lemma.** -/
theorem watch_alerts (i : ι) :
    (alerting bot).Watch Ends Means (alerts bot) i (DuringTask i) where
  op {_ _ o _ _} _ _ _ hmeans := ⟨trivial, hmeans.exec o⟩
  issue _ _ _ hmeans := hmeans.awaited
  answer _ _ _ hmeans := hmeans.awaited
  unfinished c hallowed := absurd hallowed.2 (by simp [Event.finishes])
  others hallowed hadmits hstep hother hfits hmeans :=
    means_of_isAwaited (isAwaited_of_fits hfits (not_ready_of_others hallowed.1 hother))
      (table_of_step hadmits hstep hmeans.table).1

/-- **Run lemma.** -/
theorem table_of_reachable {w₀ : AlertOffice} (hempty : w₀.table = .empty)
    (hnone : w₀.commands = []) (h : (alerts bot).Reachable AtAwaits w₀ c) :
    c.shared.table = run c.shared.commands := by
  induction h with
  | start =>
      show w₀.table = run w₀.commands
      rw [hempty, hnone]
      rfl
  | step _ _ hadmits hstep ih => exact (table_of_step hadmits hstep ih).1

/-- **Run lemma.** -/
theorem table_of_leads (htable : c₁.shared.table = run c₁.shared.commands)
    (hleads : (alerts bot).Leads (DuringTask i) c₁ c₂) :
    c₂.shared.table = run c₂.shared.commands ∧ c₁.shared.commands <+: c₂.shared.commands := by
  induction hleads with
  | refl => exact ⟨htable, List.prefix_rfl⟩
  | step _ _ hadmits hstep ih =>
      obtain ⟨htable', hcommands⟩ := table_of_step hadmits hstep ih.1
      exact ⟨htable', ih.2.trans hcommands⟩

/-! ### The moment of the list -/

/-- On the way from `c₁` to `c₂` the task asks for the subscribers of the guild at `c`. -/
structure Listing (bot : Bot) (i : ι)
    (c₁ c c₂ : Config alertEffects AlertOffice ι AlertTask (Except Raised Unit))
    (guildId : String) : Prop where
  before : (alerts bot).Leads (DuringTask i) c₁ c
  asks : ∃ y next, c.task i = .ready y (.op (.join (.listSubscriberIds guildId)) next)
  after : (alerts bot).Leads (DuringTask i) c c₂

/-- What the task has loaded, the table has given. -/
structure Loaded (bot : Bot) (i : ι)
    (c₁ : Config alertEffects AlertOffice ι AlertTask (Except Raised Unit)) (t : Stage)
    (c₂ : Config alertEffects AlertOffice ι AlertTask (Except Raised Unit)) : Prop where
  way : (alerts bot).Leads (DuringTask i) c₁ c₂
  listed : ∀ guildId userIds, t.listed = some (guildId, userIds) →
    ∃ c, Listing bot i c₁ c c₂ guildId ∧ userIds = c.shared.table.listSubscriberIds guildId

/-- **Step lemma.** -/
theorem retains_loaded (c₁ : Config alertEffects AlertOffice ι AlertTask (Except Raised Unit)) :
    (alerting bot).Retains Ends (alerts bot) i (DuringTask i) (Loaded bot i c₁) := by
  intro t t' c c' event hallowed hadmits hstep hmoves hloaded
  have hway := hloaded.way.step hallowed hadmits hstep
  refine ⟨hway, fun guildId userIds hlisted => ?_⟩
  -- a list that was loaded earlier was given on the way here
  have hearlier : t.listed = some (guildId, userIds) →
      ∃ c₂, Listing bot i c₁ c₂ c' guildId ∧
        userIds = c₂.shared.table.listSubscriberIds guildId := by
    intro hbefore
    obtain ⟨c₂, hlisting, huserIds⟩ := hloaded.listed guildId userIds hbefore
    exact ⟨c₂, ⟨hlisting.before, hlisting.asks, hlisting.after.step hallowed hadmits hstep⟩,
      huserIds⟩
  cases hmoves with
  | others => exact hearlier hlisted
  | spawn | finish => cases hlisted
  | issue | answer => exact hearlier hlisted
  | @op _ y o next _ htask _ =>
      rcases listed_afterOp hlisted with hbefore | ⟨rfl, huserIds⟩
      · exact hearlier hbefore
      · have hafter := Concurrent.Leads.refl.step hallowed hadmits hstep
        exact ⟨c, ⟨hloaded.way, ⟨y, next, htask⟩, hafter⟩, huserIds⟩

/-- The ids of a list are those of its officers. -/
theorem mem_listSubscriberIds_of_int {commands : List Toggle} {guildId userId : String} {id : ℤ}
    (h : userId ∈ (run commands).listSubscriberIds guildId) (hid : int userId = some id) :
    toString id ∈ (run commands).listSubscriberIds guildId := by
  obtain ⟨row, hrow, rfl⟩ := List.mem_map.mp h
  obtain ⟨n, hn, hname⟩ := SubscriptionTable.numeric_run commands row (List.mem_of_mem_filter hrow)
  rw [hname, SubscriptionTable.int_toString_of_lt hn] at hid
  obtain rfl := Option.some.inj hid
  rwa [hname] at h

/-- From its start to its end, a command sets a subscription only while its invoker is known to hold
the permission, and a join writes only to officers who hold it at that moment and were subscribed
when the join asked for the list. -/
theorem cleared_of_leads {w₀ : AlertOffice} (hempty : w₀.table = .empty) (hnone : w₀.commands = [])
    {x : AlertTask} (hreach : (alerts bot).Reachable AtAwaits w₀ c₁)
    (hstarted : c₁.task i = .ready x ((alerts bot).program x))
    (hleads : (alerts bot).Leads (DuringTask i) c₁ c₂) :
    c₂.shared.table = run c₂.shared.commands ∧
      (∀ y command next, c₂.task i = .ready y (.op (.setSubscription command) next) →
        ∃ given, x = .command given ∧ c₂.shared.invoker given.userId = some true ∧
          command = given.toggle ∧ given.state ∈ validStates) ∧
      ∀ y id content next, c₂.task i = .ready y (.await (.join (.memberSend id content)) next) →
        ∃ member c, x = .join member ∧ member.bot = false ∧
          bot.guildId = some member.guildId ∧ content = alertText member ∧
          c₂.shared.members id = some ⟨true⟩ ∧ Listing bot i c₁ c c₂ (toString member.guildId) ∧
          c₁.shared.commands <+: c.shared.commands ∧ c.shared.commands <+: c₂.shared.commands ∧
          toString id ∈ (run c.shared.commands).listSubscriberIds (toString member.guildId) := by
  have htable := table_of_reachable hempty hnone hreach
  have hfirst : (alerting bot).Underway Ends
      (fun t shared => Means t shared ∧ Loaded bot i c₁ t c₁) i c₁ := by
    refine ⟨by rw [hstarted]; simp, .fresh, ?_, ⟨htable, ?_, ?_⟩, .refl, ?_⟩
    · rw [hstarted]
      exact program_follows x
    · exact fun _ h => by cases h
    · exact fun _ h => by cases h
    · exact fun _ _ h => by cases h
  have hunderway := hfirst.leads_retaining (watch_alerts i) (retains_loaded c₁) hleads
  have hsame : (c₂.task i).startedWith? = some x :=
    Concurrent.startedWith?_of_leads (by rw [hstarted]; rfl) (fun _ _ h => h.2) hleads
  refine ⟨(table_of_leads htable hleads).1, ?_, ?_⟩
  · intro y command next htask
    obtain ⟨t, hok, hmeans, -⟩ := hunderway.opOk htask
    rw [htask] at hsame
    obtain rfl : y = x := Option.some.inj hsame
    cases y with
    | join member => cases hok
    | command given =>
        obtain ⟨hgranted, hcommand, hstate⟩ := hok
        exact ⟨given, rfl, hmeans.granted _ hgranted, hcommand, hstate⟩
  · intro y id content next htask
    obtain ⟨t, hok, hmeans, hloaded⟩ := hunderway.callOk htask
    rw [htask] at hsame
    obtain rfl : y = x := Option.some.inj hsame
    cases y with
    | command given => cases hok
    | join member =>
        obtain ⟨⟨hhuman, hguild⟩, hcontent, hcleared, userIds, hlisted, userId, huserId, hid⟩ := hok
        obtain ⟨c, hlisting, rfl⟩ := hloaded.listed _ _ hlisted
        obtain ⟨htable', hfirst'⟩ := table_of_leads htable hlisting.before
        rw [htable'] at huserId
        exact ⟨member, c, rfl, hhuman, hguild, hcontent, hmeans.cleared id hcleared, hlisting,
          hfirst', (table_of_leads htable' hlisting.after).2,
          mem_listSubscriberIds_of_int huserId hid⟩

end Runs

/-! ### An officer and a newcomer -/

/-- The bot of guild 1, with its service. -/
def guildBot : Bot := ⟨some 1, true⟩

/-- The user 5 turns the alerts on. -/
def fifth : NotifyParameters := ⟨1, 5, by decide, "on"⟩

/-- The user 100 joins. -/
def hundredth : JoinedMember := ⟨100, 1, false⟩

/-- There is no welcome channel. -/
def quietAnswers : (o : JoinOp) → o.Res
  | .utcNow => (0 : ℤ)
  | .recordJoin _ _ _ => .ok ()
  | .loadSecret _ => .error .unexpected
  | .getChannel _ => none
  | .listSubscriberIds _ => .ok []
  | .getMember _ => none

/-- Only the member 5 is an officer. -/
def quietOffice : AlertOffice where
  table := .empty
  commands := []
  databaseAnswers := true
  invoker userId := some (userId = 5)
  members id := if id = 5 then some ⟨true⟩ else none
  answers := quietAnswers

/-- Discord takes every message, and has no welcome channel. -/
def everythingSent : (call : AlertCall) → call.Ans
  | .join (.fetchChannel _) => .error .notFound
  | .join (.channelSend _ _) | .join (.memberSend _ _) | .defer | .followupSend _ => .ok ()

/-- The officer subscribes. -/
def subscribing : List (Event alertEffects AlertOffice Bool AlertTask) :=
  [.spawn true (.command fifth), .issue true, .answer true everythingSent, .op true, .op true,
    .issue true]

/-- The join comes to the officer. -/
def reachingOfficer : List (Event alertEffects AlertOffice Bool AlertTask) :=
  [.op false, .op false, .op false, .op false, .op false]

/-- The join has started. -/
def withNewcomer (c : Config alertEffects AlertOffice Bool AlertTask (Except Raised Unit)) :
    Config alertEffects AlertOffice Bool AlertTask (Except Raised Unit) :=
  c.setTask false (.ready (.join hundredth) ((alerts guildBot).program (.join hundredth)))

/-- The officer whom the task is about to write to. -/
def recipientOf : Progress alertEffects AlertTask (Except Raised Unit) → Option ℤ
  | .ready _ (.await (.join (.memberSend id _)) _) => some id
  | _ => none

/-- Nothing else is under way when the join comes in. -/
theorem alert_performed :
    ((alerts guildBot).runIf (fun c event => decide (AtAwaits c event)) (.start quietOffice)
        subscribing).bind (fun c =>
      if (c.task false).startedWith?.isNone ∧ (c.task true).isReady = false then
        ((alerts guildBot).runIf (fun c event => decide (DuringTask false c event))
          (withNewcomer c) reachingOfficer).bind fun c₂ => recipientOf (c₂.task false)
      else none) = some 5 := by
  decide +kernel

theorem exists_of_recipientOf {progress : Progress alertEffects AlertTask (Except Raised Unit)}
    {id : ℤ} (h : recipientOf progress = some id) :
    ∃ y content next, progress = .ready y (.await (.join (.memberSend id content)) next) := by
  unfold recipientOf at h
  split at h
  next y id' content next =>
    obtain rfl := Option.some.inj h
    exact ⟨y, content, next, rfl⟩
  next => cases h

/-- The officer was subscribed when the join asked for the list. -/
theorem cleared_of_leads_fifth :
    ∃ c₁ c c₂ : Config alertEffects AlertOffice Bool AlertTask (Except Raised Unit),
      recipientOf (c₂.task false) = some 5 ∧ Listing guildBot false c₁ c c₂ "1" ∧
        "5" ∈ (run c.shared.commands).listSubscriberIds "1" := by
  obtain ⟨c, hrun, hrest⟩ := Option.bind_eq_some_iff.mp alert_performed
  split at hrest
  case isFalse => cases hrest
  next hquiet =>
    obtain ⟨c₂, hjoined, hrecipient⟩ := Option.bind_eq_some_iff.mp hrest
    have hidle : c.task false = .idle := Progress.eq_idle_of_isNone hquiet.1
    have hready : ∀ i, (c.task i).isReady = false := by
      intro i
      cases i with
      | true => exact hquiet.2
      | false =>
          rw [hidle]
          rfl
    have hreach : (alerts guildBot).Reachable AtAwaits quietOffice c :=
      Concurrent.Reachable.start.runIf (fun _ _ h => of_decide_eq_true h) rfl hrun
    have hspawn : (alerts guildBot).step c (.spawn false (.join hundredth)) =
        some (withNewcomer c) := by
      simp only [Concurrent.step, hidle, withNewcomer]
    have hallowed : AtAwaits c (.spawn false (.join hundredth)) :=
      ⟨hready, fun h => by cases h⟩
    have hstarted : (alerts guildBot).Reachable AtAwaits quietOffice (withNewcomer c) :=
      hreach.step hallowed trivial hspawn
    have hjoining : (withNewcomer c).task false =
        .ready (.join hundredth) ((alerts guildBot).program (.join hundredth)) :=
      Function.update_self false _ c.task
    have hleads : (alerts guildBot).Leads (DuringTask false) (withNewcomer c) c₂ :=
      Concurrent.Leads.refl.runIf (fun _ _ h => of_decide_eq_true h) rfl hjoined
    obtain ⟨y, content, next, htask⟩ := exists_of_recipientOf hrecipient
    obtain ⟨member, moment, hjoin, -, -, -, -, hlisting, -, -, hsubscribed⟩ :=
      (cleared_of_leads rfl rfl hstarted hjoining hleads).2.2 y 5 content next htask
    obtain rfl : hundredth = member := AlertTask.join.inj hjoin
    exact ⟨withNewcomer c, moment, c₂, hrecipient, hlisting, hsubscribed⟩

end MomBot.NewMemberAlerts
