import Mathlib.Data.Fintype.Basic
import MomBot.Cooperative.Keeping
import MomBot.Cooperative.Pending
import MomBot.MemberNotifications.StoreContract
import MomBot.Reminders.Outcomes

/-!
# DMs from a due list that has grown old

A tick reads its due list once and sends from it while officers go on to update and
delete.  A DM that is started is `Current` if its notification is still there, enabled
and due, with the recipient and the text that are committed.

A command spoils that only between the list and the send: the tick holds the list
(`Pending`) and the command leaves a row behind that differs.  A delete is harmless as
long as the slot is not claimed, because the claim then fails (`Unclaimed`).  So
`LeavesCurrent` is the condition on a command, `currentDm_of_leavesCurrent` the law of
all runs that keep to it, and `staleDm_started` a run that does not.

The protocol `listing` follows a tick from its channel branch to its list and to each
claim.  What `LeavesCurrent` asks of a command is then an invariant, `AllSafe`.
-/

namespace MomBot.Reminders

open Cooperative Python MemberNotifications

/-! ## Officers -/

/-- The commands of officers. -/
def ByOfficer : NotificationStore.Access → Prop
  | .create _ _ _ _ _ _ _ _ _ | .update _ _ _ | .delete _ => True
  | .markSent _ _ | .unmark _ => False

/-- The notifications of a store as the scheduler reads them. -/
def notificationTable (s : NotificationStore) : NotificationTable where
  rows := s.rows.map fun row => row.toMemberNotification
  primaryKey := by
    rw [List.map_map]
    exact s.primaryKey

/-- The world with the tables of the store. -/
def World.holding (w : World) (s : NotificationStore) : World :=
  { w.setSent .memberNotification s.sent with memberNotifications := notificationTable s }

/-- An officer's command commits. -/
def World.Commanded (w w' : World) : Prop :=
  ∃ (s : NotificationStore) (access : NotificationStore.Access),
    s.HeldBy w ∧ ByOfficer access ∧ w' = w.holding (s.perform access).2

/-- Scheduler instances among officers. -/
def officedScheduler : Concurrent schedulerEffects World Tick TickEnd :=
  { scheduler with outside := World.Commanded }

/-- Ticks and commands switch only where the ticks await. -/
def AtAwaits {ι : Type} (c : Config schedulerEffects World ι Tick TickEnd)
    (event : Event schedulerEffects World ι Tick) : Prop :=
  Concurrent.SwitchesAtAwaits c event ∧
    (event.isOutside = true → ∀ i, (c.task i).isReady = false)

instance {ι : Type} [Fintype ι] [DecidableEq ι] (c : Config schedulerEffects World ι Tick TickEnd)
    (event : Event schedulerEffects World ι Tick) : Decidable (AtAwaits c event) :=
  inferInstanceAs (Decidable (_ ∧ (_ → _)))

/-! ## DMs -/

/-- What a DM is started with. -/
structure Dm where
  slot : DaySlot
  discordId : ℤ
  message : String
  deriving DecidableEq, Repr

/-- The call that sends the DM. -/
def Dm.call (dm : Dm) : SchedulerCall := .memberSend dm.slot dm.discordId dm.message

/-- The notification is due on the date and at the time of the tick. -/
def DueIn (t : Tick) (n : MemberNotification) : Prop :=
  n.fireTimeUtc.microseconds ≤ t.nowUtc.time.truncate.microseconds ∧
    isOccurrenceDate n.anchorDateUtc n.cadence t.nowUtc.date = some true

/-- The DM has the slot, the recipient and the text of the notification. -/
structure Dm.IsOf (dm : Dm) (t : Tick) (n : MemberNotification) : Prop where
  slot : dm.slot = ⟨.memberNotification, n.id, t.nowUtc.date⟩
  recipient : int n.targetDiscordId = some dm.discordId
  message : dm.message = n.messageTemplate

/-- The DM is that of a row that is there, enabled and due. -/
def Current (t : Tick) (w : World) (dm : Dm) : Prop :=
  ∃ n ∈ w.memberNotifications.rows, n.enabled = true ∧ DueIn t n ∧ dm.IsOf t n

/-- The row of the DM is not there. -/
def Gone (w : World) (dm : Dm) : Prop := dm.slot.owner ∉ w.owners .memberNotification

/-- The tick and the DM of a task whose next step starts a DM. -/
def nextDm? : Progress schedulerEffects Tick TickEnd → Option (Tick × Dm)
  | .ready t (.await (.memberSend slot discordId message) _) => some (t, ⟨slot, discordId, message⟩)
  | _ => none

/-- Every operation but the query for the due list. -/
def NotListing : SchedulerOp → Prop
  | .selectCandidates _ => False
  | _ => True

/-- The operation claims the slot. -/
def Claims (slot : DaySlot) (o : SchedulerOp) : Prop := o = .insertSent slot

/-- The tick has read its due list and may still start the DM. -/
def Pending (progress : Progress schedulerEffects Tick TickEnd) (dm : Dm) : Prop :=
  progress.Uses NotListing ∧ progress.MayCall (fun _ => False) dm.call

/-- The tick starts the DM only after it has claimed the slot. -/
def Unclaimed (progress : Progress schedulerEffects Tick TickEnd) (dm : Dm) : Prop :=
  ¬progress.MayCall (Claims dm.slot) dm.call

/-- If the tick starts the DM, then not a stale one: either the DM is current, or the
claim before it will fail. -/
def Safe (t : Tick) (w : World) (progress : Progress schedulerEffects Tick TickEnd) (dm : Dm) :
    Prop :=
  Current t w dm ∨ Unclaimed progress dm ∧ Gone w dm

/-- A command leaves every pending DM safe. -/
def LeavesCurrent {ι : Type} (c : Config schedulerEffects World ι Tick TickEnd)
    (event : Event schedulerEffects World ι Tick) : Prop :=
  ∀ w', event = .outside w' → ∀ i t dm, (c.task i).startedWith? = some t →
    Pending (c.task i) dm → Safe t w' (c.task i) dm

theorem leavesCurrent_of_task {ι : Type} {c : Config schedulerEffects World ι Tick TickEnd}
    {event : Event schedulerEffects World ι Tick} (h : event.isOutside = false) :
    LeavesCurrent c event := by
  rintro w' rfl
  cases h

/-! ## From the list to the claims -/

/-- How far a tick has come: before its list, or after it with the slot of its last
successful claim. -/
inductive Listing where
  | reading
  | listed (rows : List MemberNotification) (claimed : Option DaySlot)

/-- The DM is that of a listed row that is due. -/
def Listed (t : Tick) (rows : List MemberNotification) (dm : Dm) : Prop :=
  ∃ n ∈ rows, DueIn t n ∧ dm.IsOf t n

/-- The list is read once, on the date of the tick.  A DM is that of a listed row whose
slot has just been claimed. -/
def listing : Protocol schedulerEffects Tick Listing where
  rest := .reading
  start _ := .reading
  opOk
    | t, .reading, .selectCandidates today => today = t.nowUtc.date
    | _, .listed _ _, .selectCandidates _ => False
    | _, _, _ => True
  gives _ _ _ := True
  afterOp
    | .reading, .selectCandidates _, rows => .listed rows none
    | .listed rows _, .insertSent slot, inserted =>
        .listed rows (bif inserted then some slot else none)
    | stage, _, _ => stage
  callOk
    | _, .reading, .memberSend _ _ _ => False
    | t, .listed rows claimed, .memberSend slot discordId message =>
        claimed = some slot ∧ Listed t rows ⟨slot, discordId, message⟩
    | _, _, _ => True
  atCall stage _ := stage
  afterCall stage _ _ := stage

section Follows

variable {t : Tick} {rows : List MemberNotification} {claimed : Option DaySlot}
  {n : MemberNotification}

/-- The claims of a tick that has its list. -/
def AfterList (rows : List MemberNotification) (stage : Listing) : Prop :=
  ∃ claimed, stage = .listed rows claimed

/-- What uses the effects of the channel branch stays before the list. -/
theorem follows_reading {α : Type} {p : SchedulerM α} (h : p.Uses ChannelOp ChannelCall) :
    p.Follows listing t (fun _ stage => stage = .reading) .reading := by
  induction p with
  | done v => rfl
  | op o next ih =>
      cases o with
      | selectCandidates today => exact absurd h.1 id
      | _ => exact ⟨trivial, fun r _ => ih r (h.2 r)⟩
  | await call next ih =>
      cases call with
      | getChannel | channelSend => exact ⟨trivial, fun a => ih a (h.2 a)⟩
      | getMember | fetchMember | memberSend => exact absurd h.1 id

theorem lists_unmark {slot : DaySlot} :
    (unmark slot).Follows listing t (fun _ stage => AfterList rows stage)
      (.listed rows claimed) := by
  refine ⟨trivial, fun deleted _ => ?_⟩
  cases deleted with
  | none => exact ⟨claimed, rfl⟩
  | some row => exact ⟨trivial, fun _ _ => ⟨claimed, rfl⟩⟩

theorem lists_afterSend {slot : DaySlot} {outcome : Outcome} :
    (afterSend (unmark slot) outcome).Follows listing t (fun _ stage => AfterList rows stage)
      (.listed rows claimed) :=
  follows_afterSend_of ⟨claimed, rfl⟩ fun _ _ _ => lists_unmark

theorem lists_sendNotification {discordId : ℤ} (hmem : n ∈ rows) (hdue : DueIn t n)
    (hint : int n.targetDiscordId = some discordId) :
    (sendNotification n discordId t.nowUtc.date).Follows listing t
      (fun _ stage => AfterList rows stage)
      (.listed rows (some ⟨.memberNotification, n.id, t.nowUtc.date⟩)) :=
  ⟨⟨rfl, n, hmem, hdue, rfl, hint, rfl⟩, fun _ => lists_afterSend⟩

theorem lists_afterFetch {discordId : ℤ} {outcome : Outcome} (hmem : n ∈ rows) (hdue : DueIn t n)
    (hint : int n.targetDiscordId = some discordId) :
    (afterFetch n discordId t.nowUtc.date outcome).Follows listing t
      (fun _ stage => AfterList rows stage)
      (.listed rows (some ⟨.memberNotification, n.id, t.nowUtc.date⟩)) :=
  follows_afterFetch_of (lists_sendNotification hmem hdue hint) ⟨_, rfl⟩ lists_unmark

theorem lists_resolveMember (hmem : n ∈ rows) (hdue : DueIn t n) :
    (resolveMember n t.nowUtc.date).Follows listing t (fun _ stage => AfterList rows stage)
      (.listed rows (some ⟨.memberNotification, n.id, t.nowUtc.date⟩)) := by
  unfold resolveMember
  split
  next => exact ⟨_, rfl⟩
  next discordId hint =>
    refine ⟨trivial, fun cached => ?_⟩
    cases cached with
    | true => exact lists_sendNotification hmem hdue hint
    | false => exact ⟨trivial, fun outcome => lists_afterFetch hmem hdue hint⟩

theorem lists_handleMemberNotification (hmem : n ∈ rows) (hdue : DueIn t n) :
    (handleMemberNotification n t.nowUtc.date).Follows listing t
      (fun _ stage => AfterList rows stage) (.listed rows claimed) := by
  refine ⟨trivial, fun inserted _ => ?_⟩
  cases inserted with
  | false => exact ⟨none, rfl⟩
  | true => exact lists_resolveMember hmem hdue

theorem lists_handleNotifications {due : List MemberNotification} {completed : Bool}
    (hdue : ∀ n ∈ due, n ∈ rows ∧ DueIn t n) :
    (handleNotifications t.nowUtc.date completed due).Follows listing t
      (fun _ stage => AfterList rows stage) (.listed rows claimed) := by
  apply follows_handleNotifications_of ⟨claimed, rfl⟩
  rintro n hn _ ⟨claimed', rfl⟩
  exact lists_handleMemberNotification (hdue n hn).1 (hdue n hn).2

theorem lists_dmBranch {guild : Bool} :
    (dmBranch guild t.nowUtc.date t.nowUtc.time.truncate).Follows listing t (fun _ _ => True)
      .reading := by
  apply follows_dmBranch_of trivial
  refine ⟨rfl, fun rows _ => ⟨trivial, fun due hdue => ?_⟩⟩
  have hloop : (handleNotifications t.nowUtc.date true due).Follows listing t
      (fun _ stage => AfterList rows stage) (.listed rows none) :=
    lists_handleNotifications fun n hn => (mem_dueRows hdue).mp hn
  exact hloop.mono fun _ _ _ => trivial

theorem lists_tick (t : Tick) : (tick t).Follows listing t (fun _ _ => True) .reading := by
  simp only [tick]
  split
  next =>
    have hprocess : (processTick t.guild t.nowUtc.date.weekday t.nowUtc.time.truncate
        t.nowUtc.date).Follows listing t (fun _ _ => True) .reading := by
      rw [processTick_eq]
      apply (follows_reading uses_channelPhase).bind
      rintro result _ rfl
      cases result with
      | error failure => trivial
      | ok => exact lists_dmBranch
    exact hprocess.bind fun _ _ _ => trivial
  next => trivial

end Follows

/-! ## What lies ahead of a tick -/

section Ahead

variable {α : Type} {p : SchedulerM α} {t : Tick} {post : α → Listing → Prop} {dm : Dm}
  {rows : List MemberNotification} {claimed : Option DaySlot} {barrier : SchedulerOp → Prop}

/-- After its list a tick stays there, and the only claim is its last successful one. -/
theorem afterOp_listed (rows : List MemberNotification) (claimed : Option DaySlot)
    (o : SchedulerOp) (r : o.Res) :
    ∃ claimed', listing.afterOp (.listed rows claimed) o r = .listed rows claimed' ∧
      ∀ slot, claimed' = some slot → claimed = some slot ∨ Claims slot o := by
  cases o with
  | insertSent slot =>
      refine ⟨_, rfl, fun slot' hslot => ?_⟩
      cases r with
      | false => cases hslot
      | true =>
          obtain rfl := Option.some.inj hslot
          exact .inr rfl
  | _ => exact ⟨claimed, rfl, fun slot hslot => .inl hslot⟩

/-- A tick that will not read its list sends no DM, if it has not read it yet. -/
theorem not_mayCall_of_reading (h : p.Follows listing t post .reading)
    (huses : p.Uses NotListing fun _ => True) : ¬p.MayCall barrier dm.call := by
  induction p with
  | done v => exact id
  | op o next ih =>
      rintro ⟨-, r, hr⟩
      have hstage : listing.afterOp .reading o r = .reading := by
        cases o with
        | selectCandidates today => exact absurd huses.1 id
        | _ => rfl
      have hnext := h.2 r trivial
      rw [hstage] at hnext
      exact ih r hnext (huses.2 r) hr
  | await call next ih =>
      rintro (rfl | ⟨a, ha⟩)
      · exact h.1
      · exact ih a (h.2 a) (huses.2 a) ha

theorem uses_of_listed (h : p.Follows listing t post (.listed rows claimed)) :
    p.Uses NotListing fun _ => True := by
  induction p generalizing claimed with
  | done v => trivial
  | op o next ih =>
      refine ⟨?_, fun r => ?_⟩
      · cases o with
        | selectCandidates today => exact h.1
        | _ => trivial
      · obtain ⟨claimed', hstage, -⟩ := afterOp_listed rows claimed o r
        have hnext := h.2 r trivial
        rw [hstage] at hnext
        exact ih r hnext
  | await call next ih => exact ⟨trivial, fun a => ih a (h.2 a)⟩

/-- After its list a tick sends the DMs of the list. -/
theorem listed_of_mayCall (h : p.Follows listing t post (.listed rows claimed))
    (hmay : p.MayCall barrier dm.call) : Listed t rows dm := by
  induction p generalizing claimed with
  | done v => exact absurd hmay id
  | op o next ih =>
      obtain ⟨-, r, hr⟩ := hmay
      obtain ⟨claimed', hstage, -⟩ := afterOp_listed rows claimed o r
      have hnext := h.2 r trivial
      rw [hstage] at hnext
      exact ih r hnext hr
  | await call next ih =>
      rcases hmay with rfl | ⟨a, ha⟩
      · exact h.1.2
      · exact ih a (h.2 a) ha

/-- A DM whose slot was not claimed last comes after a claim. -/
theorem not_mayCall_of_claimed_ne (h : p.Follows listing t post (.listed rows claimed))
    (hne : claimed ≠ some dm.slot) : ¬p.MayCall (Claims dm.slot) dm.call := by
  induction p generalizing claimed with
  | done v => exact id
  | op o next ih =>
      rintro ⟨hfree, r, hr⟩
      obtain ⟨claimed', hstage, hclaimed⟩ := afterOp_listed rows claimed o r
      have hnext := h.2 r trivial
      rw [hstage] at hnext
      refine ih r hnext (fun heq => ?_) hr
      rcases hclaimed _ heq with hold | hnew
      · exact hne hold
      · exact hfree hnew
  | await call next ih =>
      rintro (rfl | ⟨a, ha⟩)
      · exact hne h.1.1
      · exact ih a (h.2 a) hne ha

end Ahead

/-! ## Every pending DM is safe -/

section Invariant

set_option linter.unusedSectionVars false

variable {ι : Type} [DecidableEq ι] {c c' : Config schedulerEffects World ι Tick TickEnd}
  {event : Event schedulerEffects World ι Tick} {i : ι} {t : Tick} {dm : Dm}
  {rows : List MemberNotification} {claimed : Option DaySlot} {w w' : World}
  {progress : Progress schedulerEffects Tick TickEnd} {stage : Listing}

/-- Every DM that may still be started is safe. -/
def AllSafe (c : Config schedulerEffects World ι Tick TickEnd) : Prop :=
  ∀ i t dm, (c.task i).startedWith? = some t → Pending (c.task i) dm →
    Safe t c.shared (c.task i) dm

theorem listing_sound : listing.Sound (fun _ _ => True) (fun (_ : ι → Listing) _ => True)
    officedScheduler LeavesCurrent where
  program := lists_tick
  spawn _ _ _ _ := trivial
  op _ _ _ _ := ⟨trivial, trivial⟩
  issue _ _ _ _ := trivial
  answer _ _ _ _ _ := trivial
  finish _ _ _ _ := trivial
  outside _ _ _ := trivial

/-- Only a command changes the notifications. -/
theorem memberNotifications_of_step (hstep : officedScheduler.step c event = some c')
    (htask : event.isOutside = false) :
    c'.shared.memberNotifications = c.shared.memberNotifications := by
  refine Concurrent.step_keeps (fun v => v.memberNotifications = c.shared.memberNotifications) hstep
    htask ?_ ?_ ?_ rfl
  · exact fun o v hsame => (exec_memberNotifications o v).trans hsame
  · exact fun call v hsame => (issue_memberNotifications call v).trans hsame
  · exact fun call answer v hsame => (complete_memberNotifications call answer v).trans hsame

theorem Current.congr (h : Current t w dm)
    (hsame : w'.memberNotifications = w.memberNotifications) :
    Current t w' dm := by
  obtain ⟨n, hn, hrest⟩ := h
  exact ⟨n, by rwa [hsame], hrest⟩

theorem Gone.congr (h : Gone w dm) (hsame : w'.memberNotifications = w.memberNotifications) :
    Gone w' dm := by
  rw [Gone, World.owners, hsame]
  exact h

/-- A tick with a pending DM has its list, and the DM is on it. -/
theorem listed_of_pending (hfits : listing.Fits (fun _ _ => True) progress stage)
    (hstarted : progress.startedWith? = some t) (hpending : Pending progress dm) :
    ∃ rows claimed, stage = .listed rows claimed ∧ Listed t rows dm := by
  cases progress with
  | idle => cases hstarted
  | ready t' rest =>
      obtain rfl := Option.some.inj hstarted
      cases stage with
      | reading => exact absurd hpending.2 (not_mayCall_of_reading hfits hpending.1)
      | listed rows claimed => exact ⟨rows, claimed, rfl, listed_of_mayCall hfits hpending.2⟩
  | awaiting t' call next =>
      obtain rfl := Option.some.inj hstarted
      obtain ⟨huses, a, ha⟩ := hpending
      obtain ⟨_, rfl, -, hnext⟩ := hfits
      cases stage with
      | reading => exact absurd ha (not_mayCall_of_reading (hnext a) (huses a))
      | listed rows claimed => exact ⟨rows, claimed, rfl, listed_of_mayCall (hnext a) ha⟩

theorem uses_of_fits (hfits : listing.Fits (fun _ _ => True) progress (.listed rows claimed)) :
    progress.Uses NotListing := by
  cases progress with
  | idle => trivial
  | ready t rest => exact uses_of_listed hfits
  | awaiting t call next =>
      intro a
      obtain ⟨before, hbefore, -, hnext⟩ := hfits
      obtain rfl : before = .listed rows claimed := hbefore.symm
      exact uses_of_listed (hnext a)

/-- A tick with its list had it before, or has just read it. -/
theorem listed_before (hmoves : listing.Moves (fun _ _ => True) officedScheduler c event i stage
      (.listed rows claimed)) :
    (∃ claimed₀, stage = .listed rows claimed₀) ∨
      ∃ t next, event = .op i ∧
        c.task i = .ready t (.op (.selectCandidates t.nowUtc.date) next) ∧
        rows = c.shared.selectCandidates t.nowUtc.date := by
  generalize hafter : Listing.listed rows claimed = after at hmoves
  cases hmoves with
  | others => exact .inl ⟨claimed, hafter.symm⟩
  | spawn => cases hafter
  | @op _ t o next _ htask hok =>
      cases stage with
      | listed rows₀ claimed₀ =>
          obtain ⟨claimed', hstage, -⟩ := afterOp_listed rows₀ claimed₀ o _
          obtain ⟨rfl, -⟩ := Listing.listed.inj (hafter.trans hstage)
          exact .inl ⟨claimed₀, rfl⟩
      | reading =>
          cases o with
          | selectCandidates today =>
              obtain rfl : today = t.nowUtc.date := hok
              obtain ⟨rfl, -⟩ := Listing.listed.inj hafter
              exact .inr ⟨t, next, rfl, htask, rfl⟩
          | _ => cases hafter
  | issue => exact .inl ⟨claimed, hafter.symm⟩
  | answer => exact .inl ⟨claimed, hafter.symm⟩
  | finish => cases hafter

/-- What is listed just now is current. -/
theorem Listed.current (h : Listed t (w.selectCandidates t.nowUtc.date) dm) : Current t w dm := by
  obtain ⟨n, hn, hdue, hdm⟩ := h
  obtain ⟨hmem, hselected⟩ := List.mem_filter.mp hn
  exact ⟨n, hmem, (of_decide_eq_true hselected).1, hdue, hdm⟩

theorem unclaimed_of_fits (hfits : listing.Fits (fun _ _ => True) progress (.listed rows claimed))
    (hne : claimed ≠ some dm.slot) : Unclaimed progress dm := by
  cases progress with
  | idle => exact id
  | ready t rest => exact not_mayCall_of_claimed_ne hfits hne
  | awaiting t call next =>
      rintro ⟨a, ha⟩
      obtain ⟨before, hbefore, -, hnext⟩ := hfits
      obtain rfl : before = .listed rows claimed := hbefore.symm
      exact not_mayCall_of_claimed_ne (hnext a) hne ha

theorem reading_of_spawn {x : Tick} {stage' : Listing}
    (hmoves : listing.Moves (fun _ _ => True) officedScheduler c (.spawn i x) i stage stage') :
    stage' = .reading := by
  cases hmoves with
  | others hother => exact absurd rfl hother
  | spawn => rfl

/-- The claim of a slot fails once its notification is gone. -/
theorem claimed_ne_of_gone {t' : Tick} {next : Bool → SchedulerM TickEnd}
    {rows₀ : List MemberNotification} {claimed₀ : Option DaySlot}
    (hmoves : listing.Moves (fun _ _ => True) officedScheduler c (.op i) i (.listed rows₀ claimed₀)
      (.listed rows claimed))
    (htask : c.task i = .ready t' (.op (.insertSent dm.slot) next)) (hgone : Gone c.shared dm)
    (hstore : dm.slot.store = .memberNotification) : claimed ≠ some dm.slot := by
  -- the foreign key of the sent log refuses the row
  have hfails : (c.shared.insertSent dm.slot).1 = false := by
    apply Bool.eq_false_iff.mpr
    intro hclaim
    obtain ⟨howner, -⟩ := World.insertSent_fst.mp hclaim
    rw [hstore] at howner
    exact hgone howner
  generalize hafter : Listing.listed rows claimed = after at hmoves
  cases hmoves with
  | others hother => exact absurd rfl hother
  | @op _ _ o _ _ htask' _ =>
      rw [htask] at htask'
      cases htask'
      have hnone : Listing.listed rows claimed =
          .listed rows₀ (bif (c.shared.insertSent dm.slot).1 then some dm.slot else none) := hafter
      rw [hfails] at hnone
      obtain ⟨-, rfl⟩ := Listing.listed.inj hnone
      simp

/-- A DM that is pending after an event of a tick with its list was pending before. -/
theorem pending_of_step {c' : Config schedulerEffects World ι Tick TickEnd}
    (hstep : officedScheduler.step c event = some c') (hnoSpawn : ∀ x, event ≠ .spawn i x)
    (hfits : listing.Fits (fun _ _ => True) (c.task i) (.listed rows claimed))
    (hpending : Pending (c'.task i) dm) : Pending (c.task i) dm := by
  refine ⟨uses_of_fits hfits, ?_⟩
  rcases Concurrent.mayCall_of_step hstep hpending.2 with hmay | ⟨x, hx⟩ | ⟨_, _, _, -, -, hnone⟩
  · exact hmay
  · exact absurd hx (hnoSpawn x)
  · exact absurd hnone id

/-- Once the row is gone, the claim before the DM goes on to fail. -/
theorem unclaimed_of_step {c' : Config schedulerEffects World ι Tick TickEnd}
    {rows₀ : List MemberNotification} {claimed₀ : Option DaySlot}
    (hstep : officedScheduler.step c event = some c') (hnoSpawn : ∀ x, event ≠ .spawn i x)
    (hmove : listing.Moves (fun _ _ => True) officedScheduler c event i (.listed rows₀ claimed₀)
      (.listed rows claimed))
    (hfits' : listing.Fits (fun _ _ => True) (c'.task i) (.listed rows claimed))
    (hlisted : Listed t rows dm) (hgone : Gone c.shared dm)
    (hunclaimed : Unclaimed (c.task i) dm) : Unclaimed (c'.task i) dm := by
  intro hmay
  rcases Concurrent.mayCall_of_step hstep hmay with hold | ⟨x, hx⟩ | ⟨t', _, next, rfl, htask, rfl⟩
  · exact hunclaimed hold
  · exact hnoSpawn x hx
  · -- the event is the claim itself, which finds no row to refer to
    obtain ⟨n, -, -, hdm⟩ := hlisted
    have hstore : dm.slot.store = .memberNotification := by rw [hdm.slot]
    have hne : claimed ≠ some dm.slot := claimed_ne_of_gone hmove htask hgone hstore
    exact unclaimed_of_fits hfits' hne hmay

/-- **Step lemma.**  An event that leaves the pending DMs safe keeps them so. -/
theorem allSafe_keeps : listing.Keeps (fun _ _ => True) (fun (_ : ι → Listing) _ => True)
    officedScheduler LeavesCurrent fun _ c => AllSafe c := by
  intro mode mode' c c' event hgoverns hgoverns' hallowed _ hstep hmoves hsafe i t dm hstarted
    hpending
  by_cases houtside : event.isOutside = true
  -- a command: it is allowed only if it leaves the pending DMs safe
  case pos =>
    cases event with
    | outside w' =>
        obtain rfl := Option.some.inj hstep
        exact hallowed w' rfl i t dm hstarted hpending
    | spawn | op | issue | answer | finish => cases houtside
  have hsame := memberNotifications_of_step hstep (Bool.eq_false_iff.mpr houtside)
  have hmove := hmoves i
  have hfits' := hgoverns'.fits i
  obtain ⟨rows, claimed, hmode', hlisted⟩ := listed_of_pending hfits' hstarted hpending
  rw [hmode'] at hmove hfits'
  -- a tick that has just started has no list, and no DM is pending
  have hnoSpawn : ∀ x, event ≠ .spawn i x := by
    rintro x rfl
    exact absurd (reading_of_spawn hmove) (by simp)
  have hstarted₀ : (c.task i).startedWith? = some t :=
    (Concurrent.startedWith?_of_step hstep hstarted).resolve_right (hnoSpawn t)
  -- either the list is older than the event, and the DM was pending before,
  -- or it is read by this event, and what is on it is current
  rcases listed_before hmove with ⟨claimed₀, hmode⟩ | ⟨t', next, -, htask, rfl⟩
  · have hfits := hgoverns.fits i
    rw [hmode] at hmove hfits
    have hbefore : Pending (c.task i) dm := pending_of_step hstep hnoSpawn hfits hpending
    rcases hsafe i t dm hstarted₀ hbefore with hcurrent | ⟨hunclaimed, hgone⟩
    · exact .inl (hcurrent.congr hsame)
    · refine .inr ⟨?_, hgone.congr hsame⟩
      exact unclaimed_of_step hstep hnoSpawn hmove hfits' hlisted hgone hunclaimed
  · rw [htask] at hstarted₀
    obtain rfl := Option.some.inj hstarted₀
    exact .inl (hlisted.current.congr hsame)

/-- **Run lemma.** -/
theorem allSafe_of_reachable
    (hreach : officedScheduler.Reachable (ι := ι) LeavesCurrent w c) :
    ∃ mode, listing.Governs (fun _ _ => True) (fun _ _ => True) mode c ∧ AllSafe c := by
  refine Protocol.governed_keeping listing_sound allSafe_keeps trivial ?_ hreach
  intro i t dm hstarted
  simp [Config.start, Progress.startedWith?] at hstarted

theorem of_nextDm? (h : nextDm? progress = some (t, dm)) :
    ∃ next, progress = .ready t (.await dm.call next) := by
  unfold nextDm? at h
  split at h
  next t' slot discordId message next =>
    cases h
    exact ⟨next, rfl⟩
  next => cases h

/-- **No stale DM.**  In every run whose commands leave the pending DMs safe, a DM that is
started is current, at whatever point the tasks and the commands switch. -/
theorem currentDm_of_leavesCurrent
    (hreach : officedScheduler.Reachable (ι := ι) LeavesCurrent w c)
    (hnext : nextDm? (c.task i) = some (t, dm)) : Current t c.shared dm := by
  obtain ⟨next, htask⟩ := of_nextDm? hnext
  obtain ⟨mode, hgoverns, hsafe⟩ := allSafe_of_reachable hreach
  have hstarted : (c.task i).startedWith? = some t := by rw [htask]; rfl
  -- the DM is the next call of the tick, so nothing can come before it
  have hmay : ∀ barrier, (c.task i).MayCall barrier dm.call := by
    intro barrier
    rw [htask]
    exact .inl rfl
  have huses : (c.task i).Uses NotListing := by
    have hfits := hgoverns.fits i
    cases hmode : mode i with
    | reading =>
        rw [hmode, htask] at hfits
        exact absurd hfits.1 id
    | listed rows claimed =>
        rw [hmode] at hfits
        exact uses_of_fits hfits
  rcases hsafe i t dm hstarted ⟨huses, hmay _⟩ with hcurrent | ⟨hunclaimed, -⟩
  · exact hcurrent
  · exact absurd (hmay _) hunclaimed

end Invariant

/-! ## A command before the tick, and one in the middle -/

/-- `wednesdayTick`, where the guild is in the cache. -/
def dmTick : Tick := { wednesdayTick with guild := true }

/-- The store of the two DMs, under the names `a` and `b`. -/
def twoStored : NotificationStore where
  rows := [⟨weeklyDm 1 "7", "a", 0, 0⟩, ⟨weeklyDm 2 "8", "b", 0, 0⟩]
  sent := emptyLog .memberNotification
  primaryKey := by decide
  uniqueName := by decide
  checks := by decide
  foreignKey := by simp [emptyLog]

/-- A world with two notifications and no reminder. -/
def twoDmWorld : World := ⟨noReminders, twoDms, emptyLog, []⟩

/-- An update that changes nothing. -/
def noFields : Fields := ⟨none, none, none, none, none, none, []⟩

/-- `b` gets another recipient. -/
def retarget : NotificationStore.Access :=
  .update 1 "b" { noFields with targetDiscordId := some "9" }

/-- `b` is switched off. -/
def switchOff : NotificationStore.Access :=
  .update 1 "b" { noFields with enabled := some (some false) }

/-- A tick up to its first DM, and from there to its second. -/
def toFirstDm : List (Event schedulerEffects World Unit Tick) :=
  [.spawn () dmTick, .op (), .op (), .op (), .issue (), .answer () allSucceed, .issue ()]

/-- From its first DM to its second. -/
def toSecondDm : List (Event schedulerEffects World Unit Tick) :=
  [.answer () allSucceed, .op (), .issue (), .answer () allSucceed]

/-- The DM of the second notification, to whom it goes. -/
def secondDm (discordId : ℤ) : Dm :=
  ⟨⟨.memberNotification, 2, dmTick.nowUtc.date⟩, discordId, "Clan boss"⟩

/-- The world after a command on the store that it holds. -/
def commanded (w : World) (s : NotificationStore) (access : NotificationStore.Access) : World :=
  w.holding (s.perform access).2

/-- A command commits where it is allowed. -/
theorem reachable_commanded {allowed : Config schedulerEffects World Unit Tick TickEnd →
      Event schedulerEffects World Unit Tick → Prop}
    {c : Config schedulerEffects World Unit Tick TickEnd} {w : World} (s : NotificationStore)
    (access : NotificationStore.Access) (h : officedScheduler.Reachable allowed w c)
    (hheld : s.HeldBy c.shared) (hofficer : ByOfficer access)
    (hallowed : allowed c (.outside (commanded c.shared s access))) :
    officedScheduler.Reachable allowed w { c with shared := commanded c.shared s access } :=
  h.step hallowed ⟨s, access, hheld, hofficer, rfl⟩ rfl

theorem currentDm_of_leavesCurrent_retarget : ∃ c,
    officedScheduler.Reachable (ι := Unit) LeavesCurrent twoDmWorld c ∧
      nextDm? (c.task ()) = some (dmTick, secondDm 9) ∧ Current dmTick c.shared (secondDm 9) := by
  have hedited : officedScheduler.Reachable (ι := Unit) LeavesCurrent twoDmWorld
      (.start (commanded twoDmWorld twoStored retarget)) := by
    apply reachable_commanded twoStored retarget .start ⟨rfl, rfl⟩ trivial
    -- the tick has not started, so no DM is pending
    intro w' _ i t dm hstarted
    cases hstarted
  have hrun : (officedScheduler.runIf (fun _ event => !event.isOutside)
      (.start (commanded twoDmWorld twoStored retarget)) (toFirstDm ++ toSecondDm)).bind
        (fun c => nextDm? (c.task ())) = some (dmTick, secondDm 9) := by
    decide +kernel
  obtain ⟨c, hrun, hnext⟩ := Option.bind_eq_some_iff.mp hrun
  have hreach := hedited.runIf
    (fun _ event hpermits => leavesCurrent_of_task (by simpa using hpermits)) rfl hrun
  exact ⟨c, hreach, hnext, currentDm_of_leavesCurrent hreach hnext⟩

theorem toFirstDm_performed :
    (officedScheduler.runIf (fun c event => decide (AtAwaits c event)) (.start twoDmWorld)
      toFirstDm).isSome = true := by
  decide +kernel

/-- The first DM is on its way. -/
def atFirstDm : Config schedulerEffects World Unit Tick TickEnd :=
  Option.get _ toFirstDm_performed

theorem atFirstDm_reachable : officedScheduler.Reachable AtAwaits twoDmWorld atFirstDm :=
  Concurrent.Reachable.start.runIf (fun _ _ h => of_decide_eq_true h) rfl
    (Option.some_get toFirstDm_performed).symm

/-- The store after the first claim. -/
def firstClaimed : NotificationStore := twoStored.insertSent 1 dmTick.nowUtc.date

/-- The second notification is switched off while the first DM is on its way. -/
def switchedOff : Config schedulerEffects World Unit Tick TickEnd :=
  { atFirstDm with shared := commanded atFirstDm.shared firstClaimed switchOff }

theorem switchedOff_reachable : officedScheduler.Reachable AtAwaits twoDmWorld switchedOff :=
  reachable_commanded firstClaimed switchOff atFirstDm_reachable ⟨rfl, rfl⟩ trivial
    ⟨trivial, fun _ _ => rfl⟩

/-- The DM of a notification that is switched off by then is started all the same. -/
theorem staleDm_started :
    ¬∀ (w : World) (c : Config schedulerEffects World Unit Tick TickEnd),
      officedScheduler.Reachable AtAwaits w c → ∀ i t dm, nextDm? (c.task i) = some (t, dm) →
        Current t c.shared dm := by
  intro hcurrent
  -- from there on the tick claims the second slot and sends its DM
  have hrun : (officedScheduler.runIf (fun c event => decide (AtAwaits c event)) switchedOff
      toSecondDm).bind (fun c => (nextDm? (c.task ())).map fun next =>
        (next, c.shared.memberNotifications.rows)) =
      some ((dmTick, secondDm 8), [weeklyDm 1 "7", { weeklyDm 2 "8" with enabled := false }]) := by
    decide +kernel
  obtain ⟨c, hrun, hend⟩ := Option.bind_eq_some_iff.mp hrun
  obtain ⟨⟨t, dm⟩, hnext, hpair⟩ := Option.map_eq_some_iff.mp hend
  obtain ⟨hdm, hrows⟩ := Prod.mk.inj hpair
  cases hdm
  have hreach := switchedOff_reachable.runIf (fun _ _ h => of_decide_eq_true h) rfl hrun
  obtain ⟨n, hn, henabled, -, hof⟩ := hcurrent twoDmWorld c hreach () dmTick (secondDm 8) hnext
  have howner : (2 : ℤ) = n.id := congrArg DaySlot.owner hof.slot
  rw [hrows] at hn
  rcases List.mem_cons.mp hn with rfl | hn
  · exact absurd howner (by decide)
  · obtain rfl := List.mem_singleton.mp hn
    exact absurd henabled (by decide)

end MomBot.Reminders
