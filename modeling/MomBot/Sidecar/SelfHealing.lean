import MomBot.Sidecar.Handling

/-!
# Corrupt cached responses

A replay reads two columns of JSON text.  Where the first of them that does not
load is no JSON at all, the request goes on as a fresh write (`replay_eq_none_iff`),
and the written row is readable again.  There are two ways to miss that.  Text
that loads, with another shape than a list of integers, reaches the response
model, which raises.  And an unassign whose key matches has no recorded day, so
it is answered before anything is written.
-/

namespace MomBot.Sidecar

open Cooperative Roles Python

variable {codec : JsonCodec} {guildId discordId : ℤ} {body : RoleSyncRequest} {w w' : World}
  {row : MemberRoleSyncState} {trace : List (Exchange RoleEffects)}
  {value : Except PyError RoleSyncResponse}

/-- The text is the JSON of a list of integers. -/
def IsIntListJson (codec : JsonCodec) (text : String) : Prop :=
  ∃ xs : List ℤ, codec.loads text = .ok (.arr (xs.map .int))

/-- One of the two columns is no list of integers. -/
def Corrupt (codec : JsonCodec) (row : MemberRoleSyncState) : Prop :=
  ¬IsIntListJson codec row.lastResponseAdded ∨ ¬IsIntListJson codec row.lastResponseRemoved

/-- Of the columns, read in their order, the first that does not load is no JSON. -/
def Undecodable (codec : JsonCodec) (row : MemberRoleSyncState) : Prop :=
  codec.loads row.lastResponseAdded = .error .jsonDecodeError ∨
    (∃ added, codec.loads row.lastResponseAdded = .ok added) ∧
      codec.loads row.lastResponseRemoved = .error .jsonDecodeError

/-- The request is handled as a fresh write, and leaves a readable row. -/
structure SelfHeals (codec : JsonCodec) (guildId discordId : ℤ) (body : RoleSyncRequest) (w : World)
    (trace : List (Exchange RoleEffects)) (value : Except PyError RoleSyncResponse) (w' : World) :
    Prop where
  freshWrite : ∃ result w₁,
    (applyDayRole guildId discordId body.action (resolvedDay w body)).Runs roleMachine w trace
      (.ok result) w₁ ∧ value = .ok (.ofResult result) ∧
    w' = w₁.upsert (freshRow codec body result)
  readable : ∃ row, w'.states body.discordId = some row ∧ ¬Corrupt codec row

theorem replay_eq_none_iff : replay codec row = none ↔ Undecodable codec row := by
  unfold replay Undecodable
  cases hadded : codec.loads row.lastResponseAdded with
  | error error => cases error <;> simp
  | ok added =>
      cases hremoved : codec.loads row.lastResponseRemoved with
      | error error => cases error <;> simp
      | ok removed => simp

/-- What the endpoint writes can be read back. -/
theorem not_corrupt_freshRow (result : RoleSyncResult) :
    ¬Corrupt codec (freshRow codec body result) := by
  rintro (hadded | hremoved)
  · exact hadded ⟨_, codec.loads_dumps _⟩
  · exact hremoved ⟨_, codec.loads_dumps _⟩

/-- With a matching key the row answers exactly if it is decodable. -/
theorem rowAnswer_eq_none_iff_undecodable (hrow : w.states body.discordId = some row)
    (hkey : keyMatches row body) : rowAnswer codec w body = none ↔ Undecodable codec row := by
  have hstale : staleWrite row body = none := by
    rw [staleWrite, hkey.1]
    simp
  rw [rowAnswer, hrow, Option.bind_some, storedAnswer, if_pos hkey, hstale, ← replay_eq_none_iff]
  cases replay codec row <;> simp

/-- The matching key gives back the day of the request. -/
theorem resolvedDay_of_keyMatches (hrow : w.states body.discordId = some row)
    (hkey : keyMatches row body) : resolvedDay w body = body.dayNumber := by
  unfold resolvedDay
  cases body.action with
  | assign => rfl
  | unassign => simp [recordedDay, hrow, hkey.2.2]

/-- Only an UPSERT makes the row readable, and only an assign gets as far as that. -/
theorem undecodable_of_selfHeals (hrow : w.states body.discordId = some row)
    (hkey : keyMatches row body) (hcorrupt : Corrupt codec row)
    (h : (roleSync codec guildId body).Runs roleMachine w trace value w')
    (hheals : SelfHeals codec guildId discordId body w trace value w') :
    body.action = .assign ∧ Undecodable codec row := by
  obtain ⟨after, hafter, hreadable⟩ := hheals.readable
  have hchanged : w'.states body.discordId ≠ w.states body.discordId := by
    rw [hrow, hafter]
    rintro heq
    obtain rfl := Option.some.inj heq
    exact hreadable hcorrupt
  cases runs_roleSync h with
  | stored => exact absurd rfl hchanged
  | nothingRecorded => exact absurd rfl hchanged
  | notANumber => exact absurd rfl hchanged
  | raised =>
      obtain ⟨result, w₁, -, hvalue, -⟩ := hheals.freshWrite
      exact absurd hvalue (by simp)
  | written hnone _ hrecorded =>
      refine ⟨?_, (rowAnswer_eq_none_iff_undecodable hrow hkey).mp hnone⟩
      cases haction : body.action with
      | assign => rfl
      | unassign =>
          -- the matching key records no day
          exact absurd ((resolvedDay_of_keyMatches hrow hkey).trans
            (body.dayNumber_of_unassign haction)) (hrecorded haction)

theorem selfHeals_of_undecodable (hrow : w.states body.discordId = some row)
    (hkey : keyMatches row body) (haction : body.action = .assign)
    (hundecodable : Undecodable codec row) (hid : int body.discordId = some discordId)
    (hok : ReturnsOrForbidden trace)
    (h : (roleSync codec guildId body).Runs roleMachine w trace value w') :
    SelfHeals codec guildId discordId body w trace value w' := by
  have hnone : rowAnswer codec w body = none :=
    (rowAnswer_eq_none_iff_undecodable hrow hkey).mpr hundecodable
  cases runs_roleSync h with
  | stored hsome => exact absurd (hnone.symm.trans hsome) (by simp)
  | nothingRecorded _ hunassign => exact absurd (haction.symm.trans hunassign) (by decide)
  | notANumber _ hnot => exact absurd (hid.symm.trans hnot) (by simp)
  | raised _ _ _ hservice =>
      obtain ⟨result, hresult⟩ := exists_result_of_runs hok hservice
      exact absurd hresult (by simp)
  | written _ hid' _ hservice =>
      obtain rfl := Option.some.inj (hid.symm.trans hid')
      exact ⟨⟨_, _, hservice, rfl, rfl⟩, _, states_upsert_freshRow _ _, not_corrupt_freshRow _⟩

/-- **Self-healing.**  A request whose key matches a corrupt row is handled as a
fresh write exactly if it is an assign and the text is no JSON. -/
theorem roleSync_selfHeals_iff (hrow : w.states body.discordId = some row)
    (hkey : keyMatches row body) (hcorrupt : Corrupt codec row)
    (hid : int body.discordId = some discordId) (hok : ReturnsOrForbidden trace)
    (h : (roleSync codec guildId body).Runs roleMachine w trace value w') :
    SelfHeals codec guildId discordId body w trace value w' ↔
      body.action = .assign ∧ Undecodable codec row := by
  constructor
  · intro hheals
    exact undecodable_of_selfHeals hrow hkey hcorrupt h hheals
  · rintro ⟨haction, hundecodable⟩
    exact selfHeals_of_undecodable hrow hkey haction hundecodable hid hok h

/-! ## Three corrupt rows -/

/-- The row that a request left, with another text in one column. -/
def corruptRow (body : RoleSyncRequest) (added : String) : MemberRoleSyncState :=
  { freshRow intLists body ⟨.applied, [], [], none⟩ with lastResponseAdded := added }

theorem corrupt_corruptRow {added : String} (h : intLists.loads added = .error .jsonDecodeError) :
    Corrupt intLists (corruptRow body added) :=
  .inl fun ⟨xs, hxs⟩ => by simp [corruptRow, h] at hxs

theorem roleSync_selfHeals_assign :
    ∃ w', (roleSync intLists 1 (assignRequest 1 "T1")).Runs roleMachine
        (smallGuild.upsert (corruptRow (assignRequest 1 "T1") "oops")) [⟨.addRoles 7 101, .ok ()⟩]
        (.ok ⟨.applied, [101], [], none, none⟩) w' ∧
      SelfHeals intLists 1 7 (assignRequest 1 "T1")
        (smallGuild.upsert (corruptRow (assignRequest 1 "T1") "oops")) [⟨.addRoles 7 101, .ok ()⟩]
        (.ok ⟨.applied, [101], [], none, none⟩) w' := by
  have hruns : ∃ w', (roleSync intLists 1 (assignRequest 1 "T1")).Runs roleMachine
      (smallGuild.upsert (corruptRow (assignRequest 1 "T1") "oops")) [⟨.addRoles 7 101, .ok ()⟩]
      (.ok ⟨.applied, [101], [], none, none⟩) w' :=
    ⟨_, .ok (), [], rfl, rfl, rfl, rfl⟩
  obtain ⟨w', hruns⟩ := hruns
  exact ⟨w', hruns, (roleSync_selfHeals_iff rfl ⟨rfl, rfl, rfl⟩ (corrupt_corruptRow rfl) (by decide)
    (by simp [ReturnsOrForbidden]) hruns).mpr ⟨rfl, .inl rfl⟩⟩

/-- **Corruption that stays.**  JSON of another shape makes the replay of an assign
raise, and an unassign answers without writing. -/
theorem corrupt_rows_stay :
    (Corrupt intLists (corruptRow (assignRequest 1 "T1") "null") ∧
      keyMatches (corruptRow (assignRequest 1 "T1") "null") (assignRequest 1 "T1") ∧
      (roleSync intLists 1 (assignRequest 1 "T1")).Runs roleMachine
        (smallGuild.upsert (corruptRow (assignRequest 1 "T1") "null")) [] (.error .validationError)
        (smallGuild.upsert (corruptRow (assignRequest 1 "T1") "null"))) ∧
    Corrupt intLists (corruptRow (unassignRequest "T1") "oops") ∧
      keyMatches (corruptRow (unassignRequest "T1") "oops") (unassignRequest "T1") ∧
      (roleSync intLists 1 (unassignRequest "T1")).Runs roleMachine
        (smallGuild.upsert (corruptRow (unassignRequest "T1") "oops")) [] (.ok nothingRecorded)
        (smallGuild.upsert (corruptRow (unassignRequest "T1") "oops")) := by
  refine ⟨⟨.inl ?_, ⟨rfl, rfl, rfl⟩, rfl, rfl, rfl⟩, corrupt_corruptRow rfl, ⟨rfl, rfl, rfl⟩,
    rfl, rfl, rfl⟩
  rintro ⟨xs, hxs⟩
  have hnull : intLists.loads "null" = .ok .null := rfl
  simp [corruptRow, hnull] at hxs

end MomBot.Sidecar
