import Mathlib.Order.Basic
import MomBot.Roles.Spec
import MomBot.Sidecar.RoleSync

/-!
# What handling one request does

`runs_roleSync` is the inversion lemma of the endpoint: every run ends in one of
the five ways that `Handled` lists, and only `written` changes the member's row.
A row that the endpoint wrote (`freshRow`) answers its own request again and
turns older requests away (`storedAnswer_freshRow`).  Where the row decides,
there is exactly one run, which calls nothing and changes nothing.
-/

namespace MomBot.Sidecar

open Cooperative Roles Python

variable {codec : JsonCodec} {guildId : ℤ} {body : RoleSyncRequest} {w w' : World}
  {trace : List (Exchange RoleEffects)} {value : Except PyError RoleSyncResponse}

/-- The day that a member's row records. -/
def recordedDay (w : World) (discordId : String) : Option ℤ :=
  (w.states discordId).bind MemberRoleSyncState.lastDayNumber

/-- The day the service is called with: an unassign takes the recorded one. -/
def resolvedDay (w : World) (body : RoleSyncRequest) : Option ℤ :=
  match body.action with
  | .assign => body.dayNumber
  | .unassign => recordedDay w body.discordId

/-- A valid unassign names no day. -/
theorem RoleSyncRequest.dayNumber_of_unassign (body : RoleSyncRequest)
    (haction : body.action = .unassign) : body.dayNumber = none := by
  simpa [haction] using body.dayNumberConditionality

/-- A valid assign names a day. -/
theorem RoleSyncRequest.exists_dayNumber (body : RoleSyncRequest)
    (haction : body.action = .assign) : ∃ day, body.dayNumber = some day :=
  Option.isSome_iff_exists.mp (body.dayNumberConditionality.mpr haction)

/-- The answer that the row gives without a call of the service. -/
def rowAnswer (codec : JsonCodec) (w : World) (body : RoleSyncRequest) :
    Option (Except PyError RoleSyncResponse) :=
  (w.states body.discordId).bind fun row => storedAnswer codec row body

/-- The answer to an unassign when no day is recorded. -/
def nothingRecorded : RoleSyncResponse :=
  ⟨.skipped, [], [], some REASON_ALREADY_LACKS_ROLE, none⟩

/-- The ways in which a request can be handled. -/
inductive Handled (codec : JsonCodec) (guildId : ℤ) (body : RoleSyncRequest) (w : World) :
    List (Exchange RoleEffects) → Except PyError RoleSyncResponse → World → Prop
  | stored {answer : Except PyError RoleSyncResponse} : rowAnswer codec w body = some answer →
      Handled codec guildId body w [] answer w
  | nothingRecorded : rowAnswer codec w body = none → body.action = .unassign →
      resolvedDay w body = none → Handled codec guildId body w [] (.ok nothingRecorded) w
  | notANumber : rowAnswer codec w body = none → int body.discordId = none →
      Handled codec guildId body w [] (.error .valueError) w
  | raised {discordId : ℤ} {trace : List (Exchange RoleEffects)} {error : PyError} {w' : World} :
      rowAnswer codec w body = none → int body.discordId = some discordId →
      (body.action = .unassign → resolvedDay w body ≠ none) →
      (applyDayRole guildId discordId body.action (resolvedDay w body)).Runs roleMachine w
        trace (.error error) w' →
      Handled codec guildId body w trace (.error error) w'
  | written {discordId : ℤ} {trace : List (Exchange RoleEffects)} {result : RoleSyncResult}
      {w' : World} :
      rowAnswer codec w body = none → int body.discordId = some discordId →
      (body.action = .unassign → resolvedDay w body ≠ none) →
      (applyDayRole guildId discordId body.action (resolvedDay w body)).Runs roleMachine w
        trace (.ok result) w' →
      Handled codec guildId body w trace (.ok (.ofResult result))
        (w'.upsert (freshRow codec body result))

private theorem runs_invokeService {day : Option ℤ} (hnone : rowAnswer codec w body = none)
    (hday : resolvedDay w body = day) (hsome : body.action = .unassign → day ≠ none)
    (h : (invokeService codec guildId body day).Runs roleMachine w trace value w') :
    Handled codec guildId body w trace value w' := by
  subst hday
  unfold invokeService at h
  cases hid : int body.discordId with
  | none =>
      rw [hid] at h
      obtain ⟨rfl, rfl, rfl⟩ := h
      exact .notANumber hnone hid
  | some discordId =>
      simp only [hid] at h
      obtain ⟨first, result, w₁, second, rfl, hservice, hrest⟩ := Coroutine.runs_bind.mp h
      cases result with
      | error error =>
          obtain ⟨rfl, rfl, rfl⟩ := hrest
          rw [List.append_nil]
          exact .raised hnone hid hsome hservice
      | ok result =>
          obtain ⟨rfl, rfl, rfl⟩ := runs_upsert.mp hrest
          rw [List.append_nil]
          exact .written hnone hid hsome hservice

theorem runs_roleSync (h : (roleSync codec guildId body).Runs roleMachine w trace value w') :
    Handled codec guildId body w trace value w' := by
  rw [roleSync, runs_sessionGet, afterLookup] at h
  cases hanswer : rowAnswer codec w body with
  | some answer =>
      rw [rowAnswer] at hanswer
      simp only [hanswer] at h
      obtain ⟨rfl, rfl, rfl⟩ := h
      exact .stored hanswer
  | none =>
      have hnone := hanswer
      rw [rowAnswer] at hanswer
      simp only [hanswer, freshWrite] at h
      cases haction : body.action with
      | assign =>
          have hday : resolvedDay w body = body.dayNumber := by rw [resolvedDay, haction]
          rw [if_neg (by simp [haction])] at h
          exact runs_invokeService hnone hday (by simp [haction]) h
      | unassign =>
          have hday : resolvedDay w body =
              (w.states body.discordId).bind MemberRoleSyncState.lastDayNumber := by
            rw [resolvedDay, haction, recordedDay]
          rw [if_pos ⟨haction, body.dayNumber_of_unassign haction⟩] at h
          cases hprior : (w.states body.discordId).bind MemberRoleSyncState.lastDayNumber with
          | none =>
              rw [hprior] at h
              obtain ⟨rfl, rfl, rfl⟩ := h
              exact .nothingRecorded hnone haction (hday.trans hprior)
          | some day =>
              rw [hprior] at h
              exact runs_invokeService hnone (hday.trans hprior) (by simp) h

/-- With calls that return or are refused, the service returns a result. -/
theorem exists_result_of_runs {memberId : ℤ} {value : Except PyError RoleSyncResult}
    (hok : ReturnsOrForbidden trace)
    (hservice : (applyDayRole guildId memberId body.action (resolvedDay w body)).Runs roleMachine w
      trace value w') : ∃ result, value = .ok result := by
  cases haction : body.action with
  | assign =>
      obtain ⟨day, hday⟩ := body.exists_dayNumber haction
      rw [resolvedDay, haction] at hservice
      simp only [hday] at hservice
      exact (runs_applyDayRole_assign hservice).exists_result hok
  | unassign =>
      rw [haction] at hservice
      exact (runs_applyDayRole_unassign hservice).exists_result hok

/-! ## The member's row -/

/-- A row that the endpoint wrote answers by its key, or turns older requests away. -/
theorem storedAnswer_freshRow (earlier : RoleSyncRequest) (result : RoleSyncResult) :
    storedAnswer codec (freshRow codec earlier result) body =
      if keyMatches (freshRow codec earlier result) body then some (.ok (.ofResult result))
      else staleWrite (freshRow codec earlier result) body := by
  unfold storedAnswer
  split
  · simp [replay, storedResponse, freshRow, codec.loads_dumps, codec.intList_ints,
      RoleSyncResponse.ofResult]
  · rfl

theorem keyMatches_freshRow_self (result : RoleSyncResult) :
    keyMatches (freshRow codec body result) body :=
  ⟨rfl, rfl, rfl⟩

theorem rowAnswer_congr {w₁ w₂ : World}
    (h : w₂.states body.discordId = w₁.states body.discordId) :
    rowAnswer codec w₂ body = rowAnswer codec w₁ body := by
  rw [rowAnswer, h, rowAnswer]

/-- A fresh write is never older than the row it replaces. -/
theorem le_of_rowAnswer_none {row : MemberRoleSyncState} (hrow : w.states body.discordId = some row)
    (hnone : rowAnswer codec w body = none) : row.lastAssignedAt ≤ body.assignedAt := by
  rw [rowAnswer, hrow, Option.bind_some, storedAnswer, Option.orElse_eq_orElse,
    Option.orElse_eq_or, Option.or_eq_none_iff] at hnone
  have hstale := hnone.2
  unfold staleWrite at hstale
  by_contra hlt
  simp [not_le.mp hlt] at hstale

@[simp] theorem states_upsert_freshRow (w : World) (result : RoleSyncResult) :
    (w.upsert (freshRow codec body result)).states body.discordId =
      some (freshRow codec body result) :=
  Function.update_self ..

theorem states_upsert_of_ne (w : World) (result : RoleSyncResult) {id : String}
    (hid : id ≠ body.discordId) :
    (w.upsert (freshRow codec body result)).states id = w.states id :=
  Function.update_of_ne hid ..

/-- Other members' rows are left alone. -/
theorem Handled.states_of_ne (h : Handled codec guildId body w trace value w') {id : String}
    (hid : id ≠ body.discordId) : w'.states id = w.states id := by
  cases h with
  | stored => rfl
  | nothingRecorded => rfl
  | notANumber => rfl
  | raised _ _ _ hservice => rw [(runs_applyDayRole_sameTables hservice).states]
  | written _ _ _ hservice =>
      rw [states_upsert_of_ne _ _ hid, (runs_applyDayRole_sameTables hservice).states]

/-- A request that raises leaves its row as it was. -/
theorem Handled.states_of_error {error : PyError}
    (h : Handled codec guildId body w trace (.error error) w') : w'.states = w.states := by
  cases h with
  | stored => rfl
  | notANumber => rfl
  | raised _ _ _ hservice => rw [(runs_applyDayRole_sameTables hservice).states]

/-! ## Requests that the row decides -/

/-- A run that the stored row answers is the only run of the request. -/
theorem runs_roleSync_of_rowAnswer {answer : Except PyError RoleSyncResponse}
    (hanswer : rowAnswer codec w body = some answer) :
    (roleSync codec guildId body).Runs roleMachine w trace value w' ↔
      trace = [] ∧ value = answer ∧ w' = w := by
  rw [roleSync, runs_sessionGet, afterLookup]
  rw [rowAnswer] at hanswer
  simp only [hanswer]
  exact Iff.rfl

theorem runs_roleSync_of_nothingRecorded (hnone : rowAnswer codec w body = none)
    (haction : body.action = .unassign) (hday : resolvedDay w body = none) :
    (roleSync codec guildId body).Runs roleMachine w trace value w' ↔
      trace = [] ∧ value = .ok nothingRecorded ∧ w' = w := by
  rw [roleSync, runs_sessionGet, afterLookup]
  rw [rowAnswer] at hnone
  rw [resolvedDay, haction] at hday
  simp only [recordedDay] at hday
  simp only [hnone, freshWrite, haction, body.dayNumber_of_unassign haction, hday, and_self,
    if_true]
  exact Iff.rfl

/-! ## A small guild -/

/-- Guild 1 with two seeded days and one member, who has no role. -/
def smallGuild : World where
  states := fun _ => none
  dayRoleMap := { rows := [⟨1, 1, 101⟩, ⟨1, 2, 102⟩], primaryKey := by decide }
  guild := { roles := [101, 102], members := fun id => if id = 7 then some [] else none }
  forcePartial := none

/-- An assign for the member 7. -/
def assignRequest (dayNumber : ℤ) (assignedAt : String) : RoleSyncRequest :=
  ⟨"7", 1, some dayNumber, .assign, assignedAt, "c", by simp⟩

/-- An unassign for the member 7. -/
def unassignRequest (assignedAt : String) : RoleSyncRequest :=
  ⟨"7", 1, none, .unassign, assignedAt, "c", by simp⟩

end MomBot.Sidecar
