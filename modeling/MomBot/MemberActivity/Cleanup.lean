import MomBot.Cooperative.Watch
import MomBot.MemberActivity.KickSafety

/-!
# Which rows a sweep may clean up

A sweep removes the row of a member whom `fetch_member` does not find, and of a member whom
it has tried to kick.  The row is removed by its key, so what is removed need not be the
row that was selected: the member may have joined again while the answer was awaited.

Only an answer to `fetch_member` or to `kick` is followed by a removal, and between the
two no other task moves.  So a sweep removes a newer row exactly if the member's row is
newer when such an answer arrives.
-/

namespace MomBot.MemberActivity

open Cooperative

/-- The member whose row is removed after an answer. -/
def clears : ActivityCall → Outcome → Option ℤ
  | .fetchMember memberId, .error .notFound => some memberId
  | .kick _ _, .error .cancelled => none
  | .kick memberId _, _ => some memberId
  | _, _ => none

/-- A member of a listed row has joined again since. -/
def Overtaken (listed : List Activity) (table : ActivityTable) (member : ℤ × ℤ) : Prop :=
  ∃ activity ∈ listed, activity.key = member ∧
    ∃ row ∈ table.rows, row.key = member ∧ activity.joinedAt < row.joinedAt

/-- No row of the member is newer than the listed one. -/
theorem joinedAt_le_of_not_overtaken {listed : List Activity} {table : ActivityTable}
    {member : ℤ × ℤ} {activity row : Activity} (h : ¬ Overtaken listed table member)
    (hlisted : activity ∈ listed) (hactivity : activity.key = member) (hrow : row ∈ table.rows)
    (hkey : row.key = member) : row.joinedAt ≤ activity.joinedAt := by
  by_contra hlater
  exact h ⟨activity, hlisted, hactivity, row, hrow, hkey, by omega⟩

/-! ## The protocol of a cleanup -/

/-- How far a sweep has come: `clearing` is a sweep that removes the row of a member next. -/
inductive Cleanup where
  | listing
  | working
  | clearing (memberId : ℤ)
  deriving DecidableEq

/-- The sweep selects at its own time, and removes a row exactly when it has come to it. -/
inductive CleansUp (ownGuild now : ℤ) (listed : List Activity) : Cleanup → ActivityOp → Prop
  | list : CleansUp ownGuild now listed .listing (.listStale now)
  | look (memberId : ℤ) : CleansUp ownGuild now listed .working (.getMember memberId)
  | check (guildId memberId : ℤ) :
      CleansUp ownGuild now listed .working (.getTracking guildId memberId)
  | remove {activity : Activity} : activity ∈ listed → activity.guildId = ownGuild →
      CleansUp ownGuild now listed (.clearing activity.memberId)
        (.removeTracking activity.guildId activity.memberId)

/-- No row is new to the list. -/
def Among (listed rows : List Activity) : Prop :=
  rows ⊆ listed

/-- The rows are among those that were listed. -/
def GivesListed (listed : List Activity) : (o : ActivityOp) → o.Res → Prop
  | .listStale _, rows => Among listed rows
  | _, _ => True

/-- Only the answers that `clears` names allow a removal. -/
def Cleanup.afterCall (call : ActivityCall) (outcome : Outcome) : Cleanup :=
  match clears call outcome with
  | some memberId => clearing memberId
  | none => working

/-- A sweep removes the members whom it has listed, each after a call about him has cleared him. -/
def cleanupProtocol (ownGuild now : ℤ) (listed : List Activity) :
    Protocol activityEffects Activation Cleanup where
  rest := .working
  start _ := .working
  opOk _ t o := CleansUp ownGuild now listed t o
  gives t o r := t = .listing → GivesListed listed o r
  afterOp _ _ _ := .working
  callOk _ t _ := t = .working
  atCall _ _ := .working
  afterCall _ call outcome := .afterCall call outcome

section Follows

variable {ownGuild now : ℤ} {listed : List Activity} {activity : Activity} {x : Activation}

theorem afterKick_cleansUp (hlisted : activity ∈ listed) (hguild : activity.guildId = ownGuild)
    (outcome : Outcome) :
    (afterKick activity outcome).Follows (cleanupProtocol ownGuild now listed) x
      (fun _ t => t = .working) (.afterCall (.kick activity.memberId kickReason) outcome) := by
  cases outcome with
  | ok value => exact ⟨.remove hlisted hguild, fun _ _ => rfl⟩
  | error exc =>
      cases exc with
      | cancelled => rfl
      | _ => exact ⟨.remove hlisted hguild, fun _ _ => rfl⟩

theorem afterSend_cleansUp (hlisted : activity ∈ listed) (hguild : activity.guildId = ownGuild)
    (outcome : Outcome) :
    (afterSend activity outcome).Follows (cleanupProtocol ownGuild now listed) x
      (fun _ t => t = .working) .working := by
  unfold afterSend
  split
  next => rfl
  next =>
    refine ⟨.check _ _, fun row _ => ?_⟩
    change (kickUnless (stateChanged activity row) activity).Follows _ _ _ _
    cases stateChanged activity row with
    | true => rfl
    | false => exact ⟨rfl, fun outcome => afterKick_cleansUp hlisted hguild outcome⟩

theorem notifyAndKick_cleansUp (hlisted : activity ∈ listed)
    (hguild : activity.guildId = ownGuild) :
    (notifyAndKick activity).Follows (cleanupProtocol ownGuild now listed) x
      (fun _ t => t = .working) .working :=
  ⟨rfl, fun outcome => afterSend_cleansUp hlisted hguild outcome⟩

theorem afterFetch_cleansUp (hlisted : activity ∈ listed) (hguild : activity.guildId = ownGuild)
    (outcome : Outcome) :
    (afterFetch activity outcome).Follows (cleanupProtocol ownGuild now listed) x
      (fun _ t => t = .working) (.afterCall (.fetchMember activity.memberId) outcome) := by
  cases outcome with
  | ok value => exact notifyAndKick_cleansUp hlisted hguild
  | error exc =>
      cases exc with
      | notFound => exact ⟨.remove hlisted hguild, fun _ _ => rfl⟩
      | _ => rfl

theorem processMember_cleansUp (hlisted : activity ∈ listed)
    (hguild : activity.guildId = ownGuild) :
    (processMember activity).Follows (cleanupProtocol ownGuild now listed) x
      (fun _ t => t = .working) .working := by
  refine ⟨.look _, fun found _ => ?_⟩
  cases found with
  | true => exact notifyAndKick_cleansUp hlisted hguild
  | false => exact ⟨rfl, fun outcome => afterFetch_cleansUp hlisted hguild outcome⟩

theorem processMembers_cleansUp {rows : List Activity} (hrows : rows ⊆ listed)
    (hguild : ∀ activity ∈ listed, activity.guildId = ownGuild) :
    (processMembers rows).Follows (cleanupProtocol ownGuild now listed) x
      (fun _ t => t = .working) .working := by
  induction rows with
  | nil => rfl
  | cons activity rest ih =>
      have hlisted : activity ∈ listed := hrows List.mem_cons_self
      refine (processMember_cleansUp hlisted (hguild activity hlisted)).bind fun result t' ht' => ?_
      subst ht'
      cases result with
      | error exc => rfl
      | ok _ => exact ih fun other hother => hrows (List.mem_cons_of_mem _ hother)

theorem sweep_cleansUp (hguild : ∀ activity ∈ listed, activity.guildId = ownGuild) :
    (sweep true now).Follows (cleanupProtocol ownGuild now listed) x (fun _ t => t = .working)
      .listing :=
  ⟨.list, fun _ hrows => processMembers_cleansUp (hrows rfl) hguild⟩

end Follows

/-! ## What the modes mean -/

/-- A sweep that selects next sees rows among `listed`, and one that removes a row next does
not find a newer one. -/
def CleanupMeans (ownGuild now : ℤ) (listed : List Activity) : Cleanup → World → Prop
  | .listing, w => Among listed (w.table.listStale now)
  | .working, _ => True
  | .clearing memberId, w => ¬ Overtaken listed w.table (ownGuild, memberId)

section Watch

variable {ι : Type} [DecidableEq ι] {ownGuild now : ℤ} {listed : List Activity} {i : ι}
  {c c' : Config activityEffects World ι Activation (Except Raised Unit)}

/-- The answer makes the sweep remove the row of a member who has joined again. -/
def ClearsOvertaken (ownGuild : ℤ) (listed : List Activity) (table : ActivityTable)
    (reply : ActivityCall → Outcome) :
    Progress activityEffects Activation (Except Raised Unit) → Prop
  | .awaiting _ call _ =>
      ∃ memberId ∈ clears call (reply call), Overtaken listed table (ownGuild, memberId)
  | _ => False

/-- A sweep's `fetch_member` ends with `NotFound`, or its `kick` ends, when the member has
already joined again. -/
def OvertakenAnswer (ownGuild : ℤ) (listed : List Activity) (i : ι)
    (c : Config activityEffects World ι Activation (Except Raised Unit)) :
    Event activityEffects World ι Activation → Prop
  | .answer j reply => j = i ∧ ClearsOvertaken ownGuild listed c.shared.table reply (c.task i)
  | _ => False

/-- While the sweep of task `i` goes on. -/
def DuringSweep (i : ι) (c : Config activityEffects World ι Activation (Except Raised Unit))
    (event : Event activityEffects World ι Activation) : Prop :=
  Concurrent.SwitchesAtAwaits c event ∧ event.finishes i = false

/-- While the sweep goes on, and no answer after which it removes a row is overtaken. -/
def DuringCurrentSweep (ownGuild : ℤ) (listed : List Activity) (i : ι)
    (c : Config activityEffects World ι Activation (Except Raised Unit))
    (event : Event activityEffects World ι Activation) : Prop :=
  DuringSweep i c event ∧ ¬ OvertakenAnswer ownGuild listed i c event

section Decidable

instance (listed : List Activity) (table : ActivityTable) (member : ℤ × ℤ) :
    Decidable (Overtaken listed table member) :=
  inferInstanceAs (Decidable (∃ activity ∈ listed, activity.key = member ∧
    ∃ row ∈ table.rows, row.key = member ∧ activity.joinedAt < row.joinedAt))

instance (ownGuild : ℤ) (listed : List Activity) (table : ActivityTable)
    (reply : ActivityCall → Outcome) :
    DecidablePred (ClearsOvertaken ownGuild listed table reply)
  | .idle | .ready _ _ => inferInstanceAs (Decidable False)
  | .awaiting _ call _ =>
      inferInstanceAs (Decidable (∃ memberId ∈ clears call (reply call), _))

instance (i : ι) (c : Config activityEffects World ι Activation (Except Raised Unit)) :
    DecidablePred (OvertakenAnswer ownGuild listed i c)
  | .answer _ _ => inferInstanceAs (Decidable (_ ∧ _))
  | .spawn _ _ | .op _ | .issue _ | .finish _ | .outside _ => inferInstanceAs (Decidable False)

instance [Fintype ι] (i : ι) (c : Config activityEffects World ι Activation (Except Raised Unit)) :
    DecidablePred (DuringSweep i c) :=
  fun _ => inferInstanceAs (Decidable (_ ∧ _))

instance [Fintype ι] (i : ι) (c : Config activityEffects World ι Activation (Except Raised Unit)) :
    DecidablePred (DuringCurrentSweep ownGuild listed i c) :=
  fun _ => inferInstanceAs (Decidable (_ ∧ _))

end Decidable

theorem Overtaken.perm {table table' : ActivityTable} {member : ℤ × ℤ}
    (h : Overtaken listed table member) (hrows : table.rows.Perm table'.rows) :
    Overtaken listed table' member := by
  obtain ⟨activity, hlisted, hactivity, row, hrow, hkey, hlater⟩ := h
  exact ⟨activity, hlisted, hactivity, row, hrows.mem_iff.mp hrow, hkey, hlater⟩

/-- The order of the rows does not matter. -/
theorem CleanupMeans.perm {t : Cleanup} {w w' : World} (h : CleanupMeans ownGuild now listed t w)
    (hrows : w'.table.rows.Perm w.table.rows) : CleanupMeans ownGuild now listed t w' := by
  cases t with
  | listing =>
      intro row hrow
      obtain ⟨hmem, hstale⟩ := List.mem_filter.mp hrow
      exact h (List.mem_filter.mpr ⟨hrows.mem_iff.mp hmem, hstale⟩)
  | working => trivial
  | clearing memberId => exact fun hovertaken => h (hovertaken.perm hrows)

theorem cleanup_watch (ownGuild now : ℤ) (listed : List Activity) (i : ι) :
    (cleanupProtocol ownGuild now listed).Watch (fun _ t => t = .working)
    (CleanupMeans ownGuild now listed)
      (autoKick ownGuild) i (DuringCurrentSweep ownGuild listed i) where
  op {c x o next t} hallowed htask hok hmeans := by
    refine ⟨fun hlisting => ?_, trivial⟩
    subst hlisting
    cases hok
    exact hmeans
  issue _ _ _ _ := trivial
  answer {c x call next before reply} hallowed htask _ _ := by
    change CleanupMeans ownGuild now listed (.afterCall call (reply call)) c.shared
    unfold Cleanup.afterCall
    split
    next memberId hclears =>
      intro hovertaken
      apply hallowed.2
      refine ⟨rfl, ?_⟩
      rw [htask]
      exact ⟨memberId, hclears, hovertaken⟩
    next => trivial
  unfinished c hallowed := absurd hallowed.1.2 (by simp [Event.finishes])
  others {c c' event t} hallowed hadmits hstep hother hfits hmeans := by
    cases hevent : event.task? with
    | none =>
        cases event with
        | outside shared =>
            obtain rfl := Option.some.inj hstep
            exact hmeans.perm hadmits.1
        | spawn | op | issue | answer | finish => cases hevent
    | some j =>
        -- another task moves, so this one is not ready, which leaves `working`
        have hbusy : ¬ (c.task i).isReady = true := by
          intro hready
          have hj : j = i := hallowed.1.1.task?_eq hready hevent
          exact hother (hj ▸ hevent)
        cases t with
        | working => trivial
        | listing | clearing memberId =>
            refine absurd (hfits.isReady ?_ ?_) hbusy
            · simp [cleanupProtocol]
            · simp [cleanupProtocol]

/-! ## Every removal -/

/-- A row that the next operation of task `i` removes belongs to a listed row, and is not
newer. -/
def KeepsNewer (ownGuild : ℤ) (listed : List Activity) (i : ι)
    (c : Config activityEffects World ι Activation (Except Raised Unit)) : Prop :=
  ∀ c', (autoKick ownGuild).step c (.op i) = some c' → ∀ row ∈ c.shared.table.rows,
    row ∉ c'.shared.table.rows →
      ∃ activity ∈ listed, activity.key = row.key ∧ row.joinedAt ≤ activity.joinedAt

/-- A sweep that is in order removes no newer row. -/
theorem not_newer_of_cleansUp {t : Cleanup} {w : World} {o : ActivityOp} {row : Activity}
    (hok : CleansUp ownGuild now listed t o) (hmeans : CleanupMeans ownGuild now listed t w)
    (hrow : row ∈ w.table.rows) (hremoved : row ∉ (w.exec o).2.table.rows) :
    ∃ activity ∈ listed, activity.key = row.key ∧ row.joinedAt ≤ activity.joinedAt := by
  cases hok with
  | list => exact absurd hrow hremoved
  | look => exact absurd hrow hremoved
  | check => exact absurd hrow hremoved
  | @remove activity hlisted hguild =>
      subst hguild
      -- the removal takes the rows of one member
      have hkey : row.key = activity.key := by
        by_contra hother
        exact hremoved (List.mem_filter.mpr ⟨hrow, decide_eq_true hother⟩)
      exact ⟨activity, hlisted, hkey.symm,
        joinedAt_le_of_not_overtaken hmeans hlisted rfl hrow hkey⟩

/-- A sweep that is about to select its rows is watched from then on. -/
theorem sweep_underway {cached : ℤ → Bool}
    (h : (autoKick ownGuild).Reachable Concurrent.SwitchesAtAwaits (.start cached) c)
    (hsweep : c.task i = .ready (.sweep true now) (sweep true now)) :
    (cleanupProtocol ownGuild now (c.shared.table.listStale now)).Underway
      (fun _ t => t = .working) (CleanupMeans ownGuild now (c.shared.table.listStale now)) i c := by
  have hstart : Tracks ownGuild (fun _ : ι => Standing.rest) (.start cached) :=
    ⟨by simp [RowsMean, World.start, ActivityTable.empty], by simp⟩
  obtain ⟨mode, hgoverns⟩ := Protocol.governed (kickProtocol_sound ownGuild) hstart h
  -- only rows of the own guild are ever stored
  have hguild : ∀ activity ∈ c.shared.table.listStale now, activity.guildId = ownGuild :=
    fun activity hlisted => (hgoverns.holds.rows activity (List.mem_of_mem_filter hlisted)).1
  refine ⟨by simp [hsweep], .listing, ?_, List.Subset.refl _⟩
  rw [hsweep]
  exact sweep_cleansUp hguild

/-- From the moment a sweep selects its rows, no removal of the sweep takes a row that is newer
than the listed one, as long as no answer after which it removes a row is overtaken. -/
theorem sweep_keepsNewer {cached : ℤ → Bool}
    (h : (autoKick ownGuild).Reachable Concurrent.SwitchesAtAwaits (.start cached) c)
    (hsweep : c.task i = .ready (.sweep true now) (sweep true now))
    (hleads : (autoKick ownGuild).Leads
      (DuringCurrentSweep ownGuild (c.shared.table.listStale now) i) c c') :
    KeepsNewer ownGuild (c.shared.table.listStale now) i c' := by
  intro c'' hstep row hrow hremoved
  obtain ⟨x, o, next, htask, hshared⟩ := Concurrent.step_op hstep
  have hunderway := (sweep_underway h hsweep).leads (cleanup_watch _ _ _ i) hleads
  obtain ⟨t, hok, hmeans⟩ := hunderway.opOk htask
  rw [hshared] at hremoved
  exact not_newer_of_cleansUp hok hmeans hrow hremoved

theorem listed_eq_of_key_eq {table : ActivityTable} {activity other : Activity}
    (hactivity : activity ∈ table.listStale now) (hother : other ∈ table.listStale now)
    (hkey : activity.key = other.key) : activity = other :=
  List.inj_on_of_nodup_map table.unique (List.mem_of_mem_filter hactivity)
    (List.mem_of_mem_filter hother) hkey

/-- A sweep that removes a row next stands before that removal. -/
theorem eq_remove_of_clearing {listed : List Activity} {x : Activation} {memberId : ℤ}
    {p : ActivityM (Except Raised Unit)} {t : Cleanup}
    (hp : p.Follows (cleanupProtocol ownGuild now listed) x (fun _ t => t = .working) t)
    (ht : t = .clearing memberId) :
    ∃ next, p = .op (.removeTracking ownGuild memberId) next := by
  subst ht
  cases p with
  | done value => cases hp
  | op o next =>
      cases hp.1 with
      | @remove activity _ hguild =>
          subst hguild
          exact ⟨next, rfl⟩
  | await call next => cases hp.1

/-- After an answer that clears a member, the sweep removes the member's row next. -/
theorem exists_removal_of_clears {listed : List Activity} {x : Activation} {call : ActivityCall}
    {next : Outcome → ActivityM (Except Raised Unit)} {reply : ActivityCall → Outcome}
    {memberId : ℤ} {t : Cleanup} (htask : c.task i = .awaiting x call next)
    (hfits : (cleanupProtocol ownGuild now listed).Fits (fun _ t => t = .working) (c.task i) t)
    (hclears : memberId ∈ clears call (reply call))
    (hstep : (autoKick ownGuild).step c (.answer i reply) = some c') :
    ∃ c₁, (autoKick ownGuild).step c' (.op i) = some c₁ ∧ c'.shared = c.shared ∧
      c₁.shared.table = c.shared.table.removeTracking ownGuild memberId := by
  rw [htask] at hfits
  obtain ⟨before, -, -, hnext⟩ := hfits
  have hclearing : Cleanup.afterCall call (reply call) = .clearing memberId := by
    rw [Cleanup.afterCall, Option.mem_def.mp hclears]
  obtain ⟨after, hremove⟩ := eq_remove_of_clearing (hnext (reply call)) hclearing
  obtain ⟨hready, hanswered⟩ := Concurrent.step_answer hstep htask
  rw [hremove] at hready
  obtain ⟨c₁, hremoval, hremoved⟩ := Concurrent.exists_step_op (C := autoKick ownGuild) hready
  have hsame : c'.shared = c.shared := hanswered
  refine ⟨c₁, hremoval, hsame, ?_⟩
  rw [hremoved, hsame]
  rfl

/-- The condition is exact: after an overtaken answer, the next operation of the sweep takes
the newer row. -/
theorem not_keepsNewer_of_overtaken {cached : ℤ → Bool} {c'' : Config activityEffects World ι
      Activation (Except Raised Unit)} {event : Event activityEffects World ι Activation}
    (h : (autoKick ownGuild).Reachable Concurrent.SwitchesAtAwaits (.start cached) c)
    (hsweep : c.task i = .ready (.sweep true now) (sweep true now))
    (hleads : (autoKick ownGuild).Leads
      (DuringCurrentSweep ownGuild (c.shared.table.listStale now) i) c c')
    (hovertaken : OvertakenAnswer ownGuild (c.shared.table.listStale now) i c' event)
    (hstep : (autoKick ownGuild).step c' event = some c'') :
    ¬ KeepsNewer ownGuild (c.shared.table.listStale now) i c'' := by
  obtain ⟨-, t, hfits, -⟩ := (sweep_underway h hsweep).leads (cleanup_watch _ _ _ i) hleads
  cases event with
  | spawn | op | issue | finish | outside => exact hovertaken.elim
  | answer j reply =>
      obtain ⟨rfl, hclears⟩ := hovertaken
      cases htask : c'.task j with
      | idle | ready =>
          rw [htask] at hclears
          exact hclears.elim
      | awaiting x call next =>
          rw [htask] at hclears
          obtain ⟨memberId, hmember, old, hold, holdKey, row, hrow, hrowKey, hlater⟩ := hclears
          obtain ⟨c₁, hremoval, hsame, hremoved⟩ :=
            exists_removal_of_clears htask hfits hmember hstep
          have hgone : row ∉ c₁.shared.table.rows := by
            rw [hremoved]
            exact fun hmem => of_decide_eq_true (List.mem_filter.mp hmem).2 hrowKey
          rw [← hsame] at hrow
          intro hkeeps
          obtain ⟨activity, hlisted, hkey, hle⟩ := hkeeps c₁ hremoval row hrow hgone
          -- one listed row a member, so the removal is measured by the overtaken one
          have heq : activity = old :=
            listed_eq_of_key_eq hlisted hold (hkey.trans (hrowKey.trans holdKey.symm))
          subst heq
          omega

end Watch

/-! ## A member who joins again during a sweep -/

/-- Members 7 and 8 join, and a sweep starts 24 hours later. -/
def staleMembers : List (Event activityEffects World Bool Activation) :=
  [.spawn false (.memberJoin false 1 7 0), .op false, .finish false,
    .spawn false (.memberJoin false 1 8 0), .op false, .finish false,
    .spawn true (.sweep true inactivityWindow)]

theorem staleMembers_performed :
    ((autoKick 1).runIf (fun c event => decide (Concurrent.SwitchesAtAwaits c event))
      (.start (.start fun _ => true)) staleMembers).isSome = true := by
  decide +kernel

/-- The sweep of the second task is about to select the two rows. -/
def aboutToSweep : Config activityEffects World Bool Activation (Except Raised Unit) :=
  Option.get _ staleMembers_performed

theorem aboutToSweep_reachable :
    (autoKick 1).Reachable Concurrent.SwitchesAtAwaits (.start fun _ => true) aboutToSweep :=
  Concurrent.Reachable.start.runIf (fun _ _ h => of_decide_eq_true h) rfl
    (Option.some_get staleMembers_performed).symm

theorem aboutToSweep_task :
    aboutToSweep.task true = .ready (.sweep true inactivityWindow) (sweep true inactivityWindow) :=
  rfl

theorem aboutToSweep_listed : aboutToSweep.shared.table.listStale inactivityWindow =
    [⟨1, 7, 0, none⟩, ⟨1, 8, 0, none⟩] := by
  decide +kernel

/-- The sweep looks a member up and writes to them. -/
def untilDm : List (Event activityEffects World Bool Activation) := [.op true, .issue true]

/-- The DM is sent, the row is as it was, and the kick is awaited. -/
def untilKick : List (Event activityEffects World Bool Activation) :=
  [.answer true allSucceed, .op true, .issue true]

/-- Member 7 joins again. -/
def rejoin : List (Event activityEffects World Bool Activation) :=
  [.spawn false (.memberJoin false 1 7 (inactivityWindow + 5)), .op false, .finish false]

/-- Member 7 joins again before the DM is answered and is not kicked; member 8 is. -/
def rejoinDuringDm : List (Event activityEffects World Bool Activation) :=
  .op true :: untilDm ++ rejoin ++ [.answer true allSucceed, .op true] ++ untilDm ++ untilKick ++
    [.answer true allSucceed]

/-- Member 7 joins again before the kick is answered. -/
def rejoinDuringKick : List (Event activityEffects World Bool Activation) :=
  .op true :: untilDm ++ untilKick ++ rejoin ++ [.answer true allSucceed]

/-- The rows before and after the next operation of the sweep. -/
def rowsAround (c : Config activityEffects World Bool Activation (Except Raised Unit)) :
    Option (List Activity × List Activity) :=
  ((autoKick 1).step c (.op true)).map fun c' => (c.shared.table.rows, c'.shared.table.rows)

theorem of_rowsAround {c : Config activityEffects World Bool Activation (Except Raised Unit)}
    {before after : List Activity} (h : rowsAround c = some (before, after)) :
    ∃ c', (autoKick 1).step c (.op true) = some c' ∧ c.shared.table.rows = before ∧
      c'.shared.table.rows = after := by
  obtain ⟨c', hstep, hrows⟩ := Option.map_eq_some_iff.mp h
  obtain ⟨hbefore, hafter⟩ := Prod.mk.inj hrows
  exact ⟨c', hstep, hbefore, hafter⟩

/-- The removal after the kick of member 8 leaves the row of member 7, who has joined again. -/
theorem sweep_keepsNewer_rejoined :
    ∃ c' c'', (autoKick 1).step c' (.op true) = some c'' ∧
      c'.shared.table.rows = [⟨1, 7, inactivityWindow + 5, none⟩, ⟨1, 8, 0, none⟩] ∧
      c''.shared.table.rows = [⟨1, 7, inactivityWindow + 5, none⟩] ∧
      KeepsNewer 1 (aboutToSweep.shared.table.listStale inactivityWindow) true c' := by
  have hrun : ((autoKick 1).runIf
      (fun c event => decide (DuringCurrentSweep 1
        (aboutToSweep.shared.table.listStale inactivityWindow) true c event))
      aboutToSweep rejoinDuringDm).bind rowsAround =
      some ([⟨1, 7, inactivityWindow + 5, none⟩, ⟨1, 8, 0, none⟩],
        [⟨1, 7, inactivityWindow + 5, none⟩]) := by
    decide +kernel
  obtain ⟨c', hrun, hrows⟩ := Option.bind_eq_some_iff.mp hrun
  obtain ⟨c'', hstep, hbefore, hafter⟩ := of_rowsAround hrows
  have hleads := Concurrent.Leads.refl.runIf (fun _ _ h => of_decide_eq_true h) rfl hrun
  exact ⟨c', c'', hstep, hbefore, hafter,
    sweep_keepsNewer aboutToSweep_reachable aboutToSweep_task hleads⟩

/-- The kick of a member who has joined again meanwhile removes the new row. -/
theorem rejoined_row_removed :
    ∃ c c' : Config activityEffects World Bool Activation (Except Raised Unit),
      (autoKick 1).Reachable Concurrent.SwitchesAtAwaits (.start fun _ => true) c ∧
      c.task true = .ready (.sweep true inactivityWindow) (sweep true inactivityWindow) ∧
      (autoKick 1).Leads (DuringSweep true) c c' ∧
      ¬ KeepsNewer 1 (c.shared.table.listStale inactivityWindow) true c' := by
  have hrun : ((autoKick 1).runIf (fun c event => decide (DuringSweep true c event)) aboutToSweep
      rejoinDuringKick).bind rowsAround =
      some ([⟨1, 7, inactivityWindow + 5, none⟩, ⟨1, 8, 0, none⟩], [⟨1, 8, 0, none⟩]) := by
    decide +kernel
  obtain ⟨c', hrun, hrows⟩ := Option.bind_eq_some_iff.mp hrun
  obtain ⟨c'', hstep, hbefore, hafter⟩ := of_rowsAround hrows
  refine ⟨aboutToSweep, c', aboutToSweep_reachable, aboutToSweep_task,
    Concurrent.Leads.refl.runIf (fun _ _ h => of_decide_eq_true h) rfl hrun, ?_⟩
  intro hkeeps
  obtain ⟨activity, hlisted, hkey, hnotNewer⟩ :=
    hkeeps c'' hstep ⟨1, 7, inactivityWindow + 5, none⟩ (by simp [hbefore]) (by simp [hafter])
  rw [aboutToSweep_listed] at hlisted
  rcases List.mem_cons.mp hlisted with rfl | hlisted
  · exact absurd hnotNewer (by decide)
  · obtain rfl := List.mem_singleton.mp hlisted
    exact absurd hkey (by decide)

end MomBot.MemberActivity
