import MomBot.MemberActivity.Scheduler

/-!
# Whom a sweep may kick

The stale rows are a snapshot, and members write, leave and rejoin while the sweep awaits.
What makes a kick safe is the row that is read again just before it: a row without a
first message is the trace of the member's latest join, with nothing recorded of the
member since.  Between that read and the kick no other task moves.
-/

namespace MomBot.MemberActivity

open Cooperative

/-- The latest that was recorded of the member is a join at `joinedAt`. -/
def Silent (history : List Recorded) (member : ℤ × ℤ) (joinedAt : ℤ) : Prop :=
  ∃ later earlier, history = later ++ .join member joinedAt :: earlier ∧
    ∀ event ∈ later, event.member ≠ member

/-- The member's latest recorded join is 24 hours old, and no message was recorded since. -/
def MayBeKicked (history : List Recorded) (member : ℤ × ℤ) (now : ℤ) : Prop :=
  ∃ joinedAt, Silent history member joinedAt ∧ joinedAt + inactivityWindow ≤ now

section Silent

variable {history : List Recorded} {member : ℤ × ℤ} {joinedAt : ℤ} {event : Recorded}

theorem Silent.of_join : Silent (.join member joinedAt :: history) member joinedAt :=
  ⟨[], history, rfl, by simp⟩

/-- What is recorded of another member does not matter. -/
theorem Silent.cons (h : Silent history member joinedAt) (hother : event.member ≠ member) :
    Silent (event :: history) member joinedAt := by
  obtain ⟨later, earlier, rfl, hlater⟩ := h
  refine ⟨event :: later, earlier, rfl, ?_⟩
  intro other hmem
  rcases List.mem_cons.mp hmem with rfl | hmem
  · exact hother
  · exact hlater other hmem

end Silent

/-! ## The protocol of a sweep -/

/-- How far a task has come: `checked` is a sweep that has read the row of the member
again and found it without a message. -/
inductive Standing where
  | rest
  | working
  | checked (member : ℤ × ℤ) (joinedAt : ℤ)
  deriving DecidableEq

/-- What a read of a row tells. -/
def Standing.ofRow (member : ℤ × ℤ) : Option Activity → Standing
  | none => working
  | some row => if row.firstMessageAt = none then checked member row.joinedAt else working

/-- The call is a kick for which the check has just been made. -/
def KickChecked (ownGuild : ℤ) (x : Activation) (t : Standing) : ActivityCall → Prop
  | .kick memberId _ => ∃ now joinedAt, x = .sweep true now ∧
      t = .checked (ownGuild, memberId) joinedAt ∧ joinedAt + inactivityWindow ≤ now
  | _ => True

/-- Only members of the own guild are recorded. -/
def RecordsOwn (ownGuild : ℤ) : ActivityOp → Prop
  | .recordJoin guildId _ _ => guildId = ownGuild
  | _ => True

/-- A row of the own guild whose join is 24 hours old. -/
def Due (ownGuild now : ℤ) (activity : Activity) : Prop :=
  activity.guildId = ownGuild ∧ activity.joinedAt + inactivityWindow ≤ now

/-- The rows are due, every one. -/
def AllDue (ownGuild now : ℤ) (rows : List Activity) : Prop :=
  ∀ activity ∈ rows, Due ownGuild now activity

/-- The stale rows are due. -/
def GivesStale (ownGuild : ℤ) : (o : ActivityOp) → o.Res → Prop
  | .listStale now, rows => AllDue ownGuild now rows
  | _, _ => True

/-- Reading the row of a member is what may allow his kick. -/
def Standing.afterOp : (o : ActivityOp) → o.Res → Standing
  | .getTracking guildId memberId, row => ofRow (guildId, memberId) row
  | _, _ => working

/-- A kick comes right after the row of its member was read and found due. -/
def kickProtocol (ownGuild : ℤ) : Protocol activityEffects Activation Standing where
  rest := .rest
  start _ := .working
  opOk _ _ o := RecordsOwn ownGuild o
  gives _ o r := GivesStale ownGuild o r
  afterOp _ o r := .afterOp o r
  callOk x t call := KickChecked ownGuild x t call
  atCall _ _ := .working
  afterCall _ _ _ := .working

section Follows

variable {ownGuild now : ℤ} {t : Standing} {activity : Activity}

theorem afterKick_follows (outcome : Outcome) {x : Activation} :
    (afterKick activity outcome).Follows (kickProtocol ownGuild) x (fun _ _ => True) t := by
  unfold afterKick
  split
  next => trivial
  next => exact ⟨trivial, fun _ _ => trivial⟩

/-- A row that has not changed is checked for its own join. -/
theorem ofRow_of_unchanged {member : ℤ × ℤ} {row : Option Activity}
    (h : stateChanged activity row = false) :
    Standing.ofRow member row = .checked member activity.joinedAt := by
  cases row with
  | none => cases h
  | some current =>
      obtain ⟨hnone, hjoined⟩ : current.firstMessageAt = none ∧
          current.joinedAt = activity.joinedAt := by
        simpa [stateChanged] using h
      simp [Standing.ofRow, hnone, hjoined]

/-- The kick follows the check of its own row. -/
theorem afterSend_follows (hdue : Due ownGuild now activity) (outcome : Outcome) :
    (afterSend activity outcome).Follows (kickProtocol ownGuild) (.sweep true now)
      (fun _ _ => True) t := by
  -- the row is of the own guild, so the check below reads the key of the kick
  obtain ⟨rfl, hjoined⟩ := hdue
  unfold afterSend
  split
  next => trivial
  next =>
    refine ⟨trivial, fun row _ => ?_⟩
    cases hchanged : stateChanged activity row with
    | true =>
        change (kickUnless (stateChanged activity row) activity).Follows _ _ _ _
        rw [hchanged]
        trivial
    | false =>
        change (kickUnless (stateChanged activity row) activity).Follows _ _ _ _
        rw [hchanged]
        exact ⟨⟨now, activity.joinedAt, rfl, ofRow_of_unchanged hchanged, hjoined⟩,
          fun outcome => afterKick_follows outcome⟩

theorem notifyAndKick_follows (hdue : Due ownGuild now activity) :
    (notifyAndKick activity).Follows (kickProtocol ownGuild) (.sweep true now)
      (fun _ _ => True) t :=
  ⟨trivial, fun outcome => afterSend_follows hdue outcome⟩

theorem afterFetch_follows (hdue : Due ownGuild now activity) (outcome : Outcome) :
    (afterFetch activity outcome).Follows (kickProtocol ownGuild) (.sweep true now)
      (fun _ _ => True) t := by
  unfold afterFetch
  split
  next => exact notifyAndKick_follows hdue
  next => exact ⟨trivial, fun _ _ => trivial⟩
  next exc _ => split <;> trivial

theorem processMember_follows (hdue : Due ownGuild now activity) :
    (processMember activity).Follows (kickProtocol ownGuild) (.sweep true now)
      (fun _ _ => True) t := by
  refine ⟨trivial, fun found _ => ?_⟩
  cases found with
  | true => exact notifyAndKick_follows hdue
  -- not in the cache: the member is fetched
  | false => exact ⟨trivial, fun outcome => afterFetch_follows hdue outcome⟩

theorem processMembers_follows {rows : List Activity} (hdue : AllDue ownGuild now rows) :
    (processMembers rows).Follows (kickProtocol ownGuild) (.sweep true now)
      (fun _ _ => True) t := by
  induction rows generalizing t with
  | nil => trivial
  | cons activity rest ih =>
      refine (processMember_follows (hdue activity List.mem_cons_self)).bind fun result t' _ => ?_
      cases result with
      | error exc => trivial
      | ok _ => exact ih fun other hother => hdue other (List.mem_cons_of_mem _ hother)

/-- **Every program keeps to the protocol.** -/
theorem program_follows (x : Activation) :
    (x.program ownGuild).Follows (kickProtocol ownGuild) x (fun _ _ => True) .working := by
  cases x with
  | sweep ready now =>
      cases ready with
      | false => trivial
      | true => exact ⟨trivial, fun rows hrows => processMembers_follows hrows⟩
  | memberJoin bot guildId memberId joinedAt =>
      simp only [Activation.program, onMemberJoin]
      split
      next => trivial
      next =>
        split
        next => trivial
        next hguild => exact ⟨not_not.mp hguild, fun _ _ => trivial⟩
  | message bot guildId authorId messageAt =>
      simp only [Activation.program, onMessage]
      split
      next => trivial
      next =>
        split
        next => trivial
        next =>
          split
          next => trivial
          next => exact ⟨trivial, fun _ _ => trivial⟩

end Follows

/-! ## What the rows and the modes mean -/

/-- Rows belong to the own guild, and a row without a first message is the trace of the
latest join. -/
def RowsMean (ownGuild : ℤ) (w : World) : Prop :=
  ∀ row ∈ w.table.rows, row.guildId = ownGuild ∧
    (row.firstMessageAt = none → Silent w.history row.key row.joinedAt)

/-- A row that a task has just checked is the trace of the latest join. -/
structure Tracks {ι : Type} (ownGuild : ℤ) (mode : ι → Standing) (w : World) : Prop where
  rows : RowsMean ownGuild w
  checked : ∀ i member joinedAt, mode i = .checked member joinedAt →
    Silent w.history member joinedAt

theorem RowsMean.exec {ownGuild : ℤ} {w : World} {o : ActivityOp} (h : RowsMean ownGuild w)
    (hown : RecordsOwn ownGuild o) : RowsMean ownGuild (w.exec o).2 := by
  cases o with
  | recordJoin guildId memberId joinedAt =>
      intro row hrow
      -- a join restarts its own row and says nothing about the others
      rcases ActivityTable.mem_recordJoin hrow with rfl | ⟨hrow, hother⟩
      · exact ⟨hown, fun _ => .of_join⟩
      · exact ⟨(h row hrow).1, fun hnone => ((h row hrow).2 hnone).cons hother.symm⟩
  | recordFirstMessage guildId memberId messageAt =>
      intro row hrow
      obtain ⟨old, hold, hguild, hnone⟩ := ActivityTable.mem_recordFirstMessage hrow
      refine ⟨hguild ▸ (h old hold).1, fun hsilent => ?_⟩
      obtain ⟨rfl, hother⟩ := hnone hsilent
      exact ((h row hold).2 hsilent).cons hother.symm
  | removeTracking guildId memberId =>
      exact fun row hrow => h row (ActivityTable.mem_of_mem_removeTracking hrow)
  | listStale now => exact h
  | getTracking guildId memberId => exact h
  | getMember memberId => exact h

section Sound

variable {ι : Type} [DecidableEq ι] {ownGuild : ℤ} {mode : ι → Standing} {w w' : World} {i : ι}

/-- A mode that is not `checked` promises nothing. -/
theorem Tracks.update (h : Tracks ownGuild mode w) {t : Standing}
    (ht : ∀ member joinedAt, t ≠ .checked member joinedAt) :
    Tracks ownGuild (Function.update mode i t) w := by
  refine ⟨h.rows, fun j member joinedAt hj => ?_⟩
  by_cases hji : j = i
  · subst hji
    rw [Function.update_self] at hj
    exact absurd hj (ht member joinedAt)
  · rw [Function.update_of_ne hji] at hj
    exact h.checked j member joinedAt hj

theorem givesStale_exec (h : RowsMean ownGuild w) (o : ActivityOp) :
    GivesStale ownGuild o (w.exec o).1 := by
  cases o with
  | listStale now =>
      intro row hrow
      obtain ⟨hmem, -, hjoined⟩ := ActivityTable.mem_listStale hrow
      exact ⟨(h row hmem).1, hjoined⟩
  | recordJoin => trivial
  | recordFirstMessage => trivial
  | getTracking => trivial
  | removeTracking => trivial
  | getMember => trivial

/-- An operation makes a check only by reading the row. -/
theorem silent_of_afterOp (h : RowsMean ownGuild w) {o : ActivityOp} {member : ℤ × ℤ}
    {joinedAt : ℤ} (hchecked : Standing.afterOp o (w.exec o).1 = .checked member joinedAt) :
    Silent (w.exec o).2.history member joinedAt := by
  cases o with
  | getTracking guildId memberId =>
      change
        Standing.ofRow (guildId, memberId) (w.table.getTracking guildId memberId) = _ at hchecked
      cases hrow : w.table.getTracking guildId memberId with
      | none =>
          rw [hrow] at hchecked
          cases hchecked
      | some row =>
          obtain ⟨hmem, hkey⟩ := ActivityTable.mem_of_getTracking hrow
          rw [hrow, Standing.ofRow] at hchecked
          split at hchecked
          next hnone =>
            obtain ⟨rfl, rfl⟩ := Standing.checked.inj hchecked
            rw [← hkey]
            exact (h row hmem).2 hnone
          next => cases hchecked
  | recordJoin => cases hchecked
  | recordFirstMessage => cases hchecked
  | listStale => cases hchecked
  | removeTracking => cases hchecked
  | getMember => cases hchecked

theorem kickProtocol_sound (ownGuild : ℤ) :
    (kickProtocol ownGuild).Sound (fun _ _ => True) (Tracks (ι := ι) ownGuild)
      (autoKick ownGuild) Concurrent.SwitchesAtAwaits where
  program x := program_follows x
  spawn hgoverns _ _ _ := hgoverns.holds.update (by simp [kickProtocol])
  issue hgoverns _ _ _ := hgoverns.holds.update (by simp [kickProtocol])
  answer hgoverns _ _ _ _ := hgoverns.holds.update (by simp [kickProtocol])
  finish hgoverns _ _ _ := hgoverns.holds.update (by simp [kickProtocol])
  outside hgoverns _ hworld := by
    obtain ⟨hrows, hhistory⟩ := hworld
    refine ⟨fun row hrow => ?_, fun j member joinedAt hj => ?_⟩
    · rw [hhistory]
      exact hgoverns.holds.rows row (hrows.mem_iff.mp hrow)
    · rw [hhistory]
      exact hgoverns.holds.checked j member joinedAt hj
  op {mode c i x o next} hgoverns hswitches _ hown := by
    refine ⟨givesStale_exec hgoverns.holds.rows o, hgoverns.holds.rows.exec hown, ?_⟩
    intro j member joinedAt hj
    by_cases hji : j = i
    · subst hji
      rw [Function.update_self] at hj
      exact silent_of_afterOp hgoverns.holds.rows hj
    · -- a task that has just checked a row is ready, so no other task moves
      rw [Function.update_of_ne hji] at hj
      have hready : (c.task j).isReady = true := by
        apply hgoverns.isReady
        · rw [hj]
          simp [kickProtocol]
        · rw [hj]
          simp [kickProtocol]
      exact absurd (hswitches j hji) (by simp [hready])

/-! ## Every kick -/

/-- No guild member is known, and nothing is recorded. -/
def World.start (cached : ℤ → Bool) : World := ⟨.empty, cached, []⟩

/-- Whenever `kick` is called, the member's latest recorded join is at least 24 hours before
the clock reading of the sweep, and no message was recorded since. -/
theorem kick_safe {ι : Type} [DecidableEq ι] {ownGuild : ℤ} {cached : ℤ → Bool}
    {c : Config activityEffects World ι Activation (Except Raised Unit)} {i : ι}
    {x : Activation} {memberId : ℤ} {reason : String}
    {next : Outcome → ActivityM (Except Raised Unit)}
    (h : (autoKick ownGuild).Reachable Concurrent.SwitchesAtAwaits (.start cached) c)
    (htask : c.task i = .ready x (.await (.kick memberId reason) next)) :
    ∃ now, x = .sweep true now ∧ MayBeKicked c.shared.history (ownGuild, memberId) now := by
  have hstart : Tracks ownGuild (fun _ : ι => Standing.rest) (.start cached) :=
    ⟨by simp [RowsMean, World.start, ActivityTable.empty], by simp⟩
  obtain ⟨mode, hgoverns⟩ := Protocol.governed (kickProtocol_sound ownGuild) hstart h
  obtain ⟨now, joinedAt, hsweep, hchecked, hjoined⟩ := hgoverns.callOk htask
  exact ⟨now, hsweep, joinedAt, hgoverns.holds.checked i _ joinedAt hchecked, hjoined⟩

end Sound

/-! ## A member who stayed silent -/

/-- The member of a kick that is about to be called, and the clock reading of its sweep. -/
def nextKick? : Progress activityEffects Activation (Except Raised Unit) → Option (ℤ × ℤ)
  | .ready (.sweep _ now) (.await (.kick memberId _) _) => some (memberId, now)
  | _ => none

theorem of_nextKick? {progress : Progress activityEffects Activation (Except Raised Unit)}
    {memberId now : ℤ} (h : nextKick? progress = some (memberId, now)) :
    ∃ ready reason next,
      progress = .ready (.sweep ready now) (.await (.kick memberId reason) next) := by
  unfold nextKick? at h
  split at h
  next ready _ _ reason next =>
    cases h
    exact ⟨ready, reason, next, rfl⟩
  next => cases h

/-- Every call succeeds. -/
def allSucceed (_ : ActivityCall) : Outcome := .ok ()

/-- Member 7 joins, and is about to be kicked 24 hours later. -/
def silentSchedule : List (Event activityEffects World Bool Activation) :=
  [.spawn false (.memberJoin false 1 7 0), .op false, .finish false,
    .spawn true (.sweep true inactivityWindow), .op true, .op true, .issue true,
    .answer true allSucceed, .issue true, .answer true allSucceed, .op true]

theorem kick_safe_silent : MayBeKicked [.join (1, 7) 0] (1, 7) inactivityWindow := by
  have hrun : ((autoKick 1).runIf (fun c event => decide (Concurrent.SwitchesAtAwaits c event))
      (.start (.start fun _ => false)) silentSchedule).map (fun c =>
        (c.shared.history, nextKick? (c.task true))) =
      some ([.join (1, 7) 0], some (7, inactivityWindow)) := by
    decide +kernel
  obtain ⟨c, hrun, hlast⟩ := Option.map_eq_some_iff.mp hrun
  obtain ⟨hhistory, hkick⟩ := Prod.mk.inj hlast
  have hreachable : (autoKick 1).Reachable Concurrent.SwitchesAtAwaits (.start fun _ => false) c :=
    Concurrent.Reachable.start.runIf (fun _ _ h => of_decide_eq_true h) rfl hrun
  obtain ⟨ready, reason, next, htask⟩ := of_nextKick? hkick
  obtain ⟨now, hsweep, hmay⟩ := kick_safe hreachable htask
  obtain ⟨-, rfl⟩ := Activation.sweep.inj hsweep
  rwa [hhistory] at hmay

end MomBot.MemberActivity
