import Mathlib.Logic.Relation
import MomBot.Sidecar.Handling

/-!
# Redelivery of a request

siege-web delivers at least once.  A request that was answered is answered in
the same way when it comes again, whichever of the exits of the handler it took:
the exits that write nothing read nothing but the member's row, and a fresh
write leaves a row that carries its own key.
-/

namespace MomBot.Sidecar

open Cooperative Roles Python

variable {codec : JsonCodec} {guildId : ℤ}

/-- What may happen between two deliveries: a request for another member is
handled, or anything changes that is not a row of `member_role_sync_state`. -/
inductive Elsewhere (codec : JsonCodec) (guildId : ℤ) (discordId : String) : World → World → Prop
  | request {body : RoleSyncRequest} {w w' : World} {trace : List (Exchange RoleEffects)}
      {value : Except PyError RoleSyncResponse} : body.discordId ≠ discordId →
      (roleSync codec guildId body).Runs roleMachine w trace value w' →
      Elsewhere codec guildId discordId w w'
  | outside {w w' : World} : w'.states = w.states → Elsewhere codec guildId discordId w w'

theorem Elsewhere.states {discordId : String} {w w' : World}
    (h : Elsewhere codec guildId discordId w w') : w'.states discordId = w.states discordId := by
  cases h with
  | request hne hruns => exact (runs_roleSync hruns).states_of_ne hne.symm
  | outside hstates => rw [hstates]

theorem states_of_elsewhere {discordId : String} {w w' : World}
    (h : Relation.ReflTransGen (Elsewhere codec guildId discordId) w w') :
    w'.states discordId = w.states discordId := by
  induction h with
  | refl => rfl
  | tail _ hstep ih => exact hstep.states.trans ih

/-- The second delivery, with the row that the first one left. -/
theorem runs_again {body : RoleSyncRequest} {response : RoleSyncResponse} {w w₁ w₂ w₃ : World}
    {trace again : List (Exchange RoleEffects)} {value : Except PyError RoleSyncResponse}
    (hfirst : (roleSync codec guildId body).Runs roleMachine w trace (.ok response) w₁)
    (hrow : w₂.states body.discordId = w₁.states body.discordId) :
    (roleSync codec guildId body).Runs roleMachine w₂ again value w₃ ↔
      again = [] ∧ value = .ok response ∧ w₃ = w₂ := by
  have hcases := runs_roleSync hfirst
  generalize hok : (Except.ok response : Except PyError RoleSyncResponse) = answer at hcases
  cases hcases with
  | stored hanswer =>
      exact runs_roleSync_of_rowAnswer ((rowAnswer_congr hrow).trans hanswer)
  | nothingRecorded hnone haction hday =>
      refine runs_roleSync_of_nothingRecorded ((rowAnswer_congr hrow).trans hnone) haction ?_
      rw [resolvedDay, haction] at hday ⊢
      rw [recordedDay, hrow]
      exact hday
  | notANumber => exact absurd hok (by simp)
  | raised => exact absurd hok (by simp)
  | written hnone hid hday hservice =>
      refine runs_roleSync_of_rowAnswer ?_
      -- the fresh row carries the key of its own request
      rw [rowAnswer, hrow, states_upsert_freshRow, Option.bind_some, storedAnswer_freshRow,
        if_pos (keyMatches_freshRow_self _)]

/-- **Idempotent redelivery.**  A request that got a response gets the same
response again, with no Discord call, no new row and no changed role.  Every
answer that the environment might give the second delivery is covered, and the
second delivery does return. -/
theorem roleSync_redelivery {body : RoleSyncRequest} {response : RoleSyncResponse}
    {w w₁ w₂ w₃ : World} {trace again : List (Exchange RoleEffects)}
    {value : Except PyError RoleSyncResponse}
    (hfirst : (roleSync codec guildId body).Runs roleMachine w trace (.ok response) w₁)
    (hbetween : Relation.ReflTransGen (Elsewhere codec guildId body.discordId) w₁ w₂) :
    (roleSync codec guildId body).Runs roleMachine w₂ again value w₃ ↔
      again = [] ∧ value = .ok response ∧ w₃ = w₂ :=
  runs_again hfirst (states_of_elsewhere hbetween)

/-- An assign that adds the role, and the same assign again. -/
theorem roleSync_redelivery_assign :
    ∃ w₁ response, (roleSync intLists 1 (assignRequest 1 "T1")).Runs roleMachine smallGuild
        [⟨.addRoles 7 101, .ok ()⟩] (.ok response) w₁ ∧ response.added = [101] ∧
      ∀ again value w₃, (roleSync intLists 1 (assignRequest 1 "T1")).Runs roleMachine w₁ again
        value w₃ ↔ again = [] ∧ value = .ok response ∧ w₃ = w₁ := by
  have hfirst : ∃ w₁, (roleSync intLists 1 (assignRequest 1 "T1")).Runs roleMachine smallGuild
      [⟨.addRoles 7 101, .ok ()⟩] (.ok ⟨.applied, [101], [], none, none⟩) w₁ :=
    ⟨_, .ok (), [], rfl, rfl, rfl, rfl⟩
  obtain ⟨w₁, hfirst⟩ := hfirst
  refine ⟨w₁, _, hfirst, rfl, fun again value w₃ => ?_⟩
  exact roleSync_redelivery hfirst .refl

end MomBot.Sidecar
