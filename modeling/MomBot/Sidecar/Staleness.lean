import MomBot.Python.Timestamp
import MomBot.Sidecar.Handling

/-!
# When a request is stale

The endpoint compares `assigned_at` as text with the one in the member's row.
`treatedAsStale_iff` says that nothing else matters: an exact replay is never
stale, and no other answer looks like that of a stale write.  Whether the text
says the same as the instants is a matter of the format, see
`Python/Timestamp.lean`.
-/

namespace MomBot.Sidecar

open Cooperative Roles Python

variable {codec : JsonCodec} {guildId : ℤ} {body : RoleSyncRequest} {w w' : World}
  {row : MemberRoleSyncState} {trace : List (Exchange RoleEffects)}
  {value : Except PyError RoleSyncResponse}

/-- The answer to a stale write. -/
def staleAnswer (row : MemberRoleSyncState) : RoleSyncResponse :=
  ⟨.skipped, [], [], some "stale_write", some row.lastAssignedAt⟩

/-- The request is turned away, and nothing happens. -/
structure TreatedAsStale (row : MemberRoleSyncState) (w : World)
    (trace : List (Exchange RoleEffects)) (value : Except PyError RoleSyncResponse) (w' : World) :
    Prop where
  answer : value = .ok (staleAnswer row)
  noCall : trace = []
  unchanged : w' = w

/-- A replayed response names no other timestamp. -/
theorem replay_ne_staleAnswer (row : MemberRoleSyncState) :
    replay codec row ≠ some (.ok (staleAnswer row)) := by
  unfold replay storedResponse
  split
  · simp
  · simp
  · split
    · simp
    · simp
    · split <;> simp [staleAnswer]

theorem storedAnswer_eq_stale_iff :
    storedAnswer codec row body = some (.ok (staleAnswer row)) ↔
      body.assignedAt < row.lastAssignedAt := by
  unfold storedAnswer
  by_cases hkey : keyMatches row body
  · rw [if_pos hkey]
    -- the timestamps of a replay are equal
    have hnot : ¬body.assignedAt < row.lastAssignedAt := by
      rw [hkey.1]
      exact lt_irrefl _
    refine iff_of_false ?_ hnot
    cases hreplay : replay codec row with
    | none => simp [staleWrite, hnot]
    | some answer =>
        intro heq
        exact replay_ne_staleAnswer row (hreplay.trans heq)
  · rw [if_neg hkey]
    by_cases hlt : body.assignedAt < row.lastAssignedAt
    · exact iff_of_true (by simp [staleWrite, hlt, staleAnswer]) hlt
    · exact iff_of_false (by simp [staleWrite, hlt]) hlt

/-- **Staleness is the order of the texts.** -/
theorem treatedAsStale_iff (hrow : w.states body.discordId = some row)
    (h : (roleSync codec guildId body).Runs roleMachine w trace value w') :
    TreatedAsStale row w trace value w' ↔ body.assignedAt < row.lastAssignedAt := by
  have hanswer : rowAnswer codec w body = storedAnswer codec row body := by
    rw [rowAnswer, hrow, Option.bind_some]
  have hlt : storedAnswer codec row body = some (.ok (staleAnswer row)) ↔
      body.assignedAt < row.lastAssignedAt := storedAnswer_eq_stale_iff
  rw [← hlt, ← hanswer]
  constructor
  · intro hstale
    obtain rfl := hstale.answer
    generalize hvalue : (Except.ok (staleAnswer row) : Except PyError RoleSyncResponse) = value at h
    cases runs_roleSync h with
    | stored hsome => exact hsome
    | nothingRecorded => simp [staleAnswer, nothingRecorded] at hvalue
    | notANumber => simp at hvalue
    | raised => simp at hvalue
    | written => simp [staleAnswer, RoleSyncResponse.ofResult] at hvalue
  · intro hsome
    obtain ⟨htrace, hvalue, hworld⟩ := (runs_roleSync_of_rowAnswer hsome).mp h
    exact ⟨hvalue, htrace, hworld⟩

/-- **Staleness is chronological** exactly where the timestamps differ in their
whole seconds or have aligned fractions. -/
theorem treatedAsStale_chronological_iff {stored incoming : Timestamp}
    (hrow : w.states body.discordId = some row) (hstored : row.lastAssignedAt = stored.text)
    (hincoming : body.assignedAt = incoming.text)
    (h : (roleSync codec guildId body).Runs roleMachine w trace value w') :
    (TreatedAsStale row w trace value w' ↔ incoming.instant < stored.instant) ↔
      (incoming.fields = stored.fields → Aligned incoming.fraction stored.fraction) := by
  rw [treatedAsStale_iff hrow h, hstored, hincoming]
  exact Timestamp.text_lt_iff_instant_lt_iff

/-! ## Around noon -/

/-- Noon of one day, with a fraction of a second. -/
def noon (fraction : List (Fin 10)) : Timestamp where
  year := 2026
  month := 7
  day := 21
  hour := 12
  minute := 0
  second := 0
  fraction := fraction
  yearValid := by decide
  monthValid := by decide
  dayValid := by decide
  timeValid := by decide

example : (noon []).text = "2026-07-21T12:00:00Z" ∧
    (noon [2, 5]).text = "2026-07-21T12:00:00.25Z" := by
  decide

theorem treatedAsStale_chronological_quarter :
    ∃ w row trace value w', w.states "7" = some row ∧ row.lastAssignedAt = (noon [5]).text ∧
      (roleSync intLists 1 (assignRequest 2 (noon [2, 5]).text)).Runs roleMachine w trace value w' ∧
      (TreatedAsStale row w trace value w' ↔ (noon [2, 5]).instant < (noon [5]).instant) := by
  have hfirst : ∃ w row, (roleSync intLists 1 (assignRequest 1 (noon [5]).text)).Runs roleMachine
      smallGuild [⟨.addRoles 7 101, .ok ()⟩] (.ok ⟨.applied, [101], [], none, none⟩) w ∧
      w.states "7" = some row ∧ row.lastAssignedAt = (noon [5]).text :=
    ⟨_, _, ⟨.ok (), [], rfl, rfl, rfl, rfl⟩, rfl, rfl⟩
  obtain ⟨w, row, -, hrow, hstored⟩ := hfirst
  obtain ⟨trace, value, w', hruns, -⟩ := Coroutine.exists_runs roleMachine allReturn
    (roleSync intLists 1 (assignRequest 2 (noon [2, 5]).text)) w
  exact ⟨w, row, trace, value, w', hrow, hstored, hruns,
    (treatedAsStale_chronological_iff hrow hstored rfl hruns).mpr fun _ => by decide⟩

/-- **The newer request is turned away.**  Day 1 is assigned at noon, and day 2
a half second later. -/
theorem newer_treatedAsStale :
    ∃ w row trace value w', (roleSync intLists 1 (assignRequest 1 (noon []).text)).Runs roleMachine
        smallGuild [⟨.addRoles 7 101, .ok ()⟩] (.ok ⟨.applied, [101], [], none, none⟩) w ∧
      w.states "7" = some row ∧ row.lastAssignedAt = (noon []).text ∧
      (roleSync intLists 1 (assignRequest 2 (noon [5]).text)).Runs roleMachine w trace value w' ∧
      TreatedAsStale row w trace value w' ∧ ¬(noon [5]).instant < (noon []).instant := by
  have hassign : ∃ w row, (roleSync intLists 1 (assignRequest 1 (noon []).text)).Runs roleMachine
      smallGuild [⟨.addRoles 7 101, .ok ()⟩] (.ok ⟨.applied, [101], [], none, none⟩) w ∧
      w.states "7" = some row ∧ row.lastAssignedAt = (noon []).text :=
    ⟨_, _, ⟨.ok (), [], rfl, rfl, rfl, rfl⟩, rfl, rfl⟩
  obtain ⟨w, row, hfirst, hrow, hstored⟩ := hassign
  obtain ⟨trace, value, w', hruns, -⟩ := Coroutine.exists_runs roleMachine allReturn
    (roleSync intLists 1 (assignRequest 2 (noon [5]).text)) w
  refine ⟨w, row, trace, value, w', hfirst, hrow, hstored, hruns, ?_, by decide +kernel⟩
  rw [treatedAsStale_iff hrow hruns, hstored]
  decide

end MomBot.Sidecar
