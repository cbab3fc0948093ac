import MomBot.Roles.World

/-!
# `roles/service.py`: the day-role toggle

`applyDayRole` resolves a day number to a Discord role through the
`day_role_map` table and adds or removes that role.  Database reads and reads
of the guild cache are operations, `add_roles` and `remove_roles` are awaited.

Log records, and `_maybe_emit_hierarchy_loss` which only writes one, are left
out.
-/

namespace MomBot.Roles

open Cooperative

/-! ## Reason codes -/

def REASON_MEMBER_NOT_IN_GUILD : String := "member_not_in_guild"
def REASON_ROLE_NOT_SEEDED : String := "role_not_seeded"
def REASON_ALREADY_HAS_ROLE : String := "already_has_role"
def REASON_ALREADY_LACKS_ROLE : String := "already_lacks_role"
def REASON_REMOVE_OTHER_DAY_FAILED_403 : String := "remove_of_other_day_failed_403"

/-- `RoleSyncResult`. -/
structure RoleSyncResult where
  status : Status
  added : List ℤ
  removed : List ℤ
  reason : Option String
  deriving DecidableEq, Repr

/-- A request that changes nothing, and why. -/
def RoleSyncResult.skip (reason : String) : RoleSyncResult :=
  ⟨.skipped, [], [], some reason⟩

/-! ## The service -/

/-- The day of a map that holds one of the member's roles, other than the day
to assign: the first one in the map's order. -/
def otherDayRole (dayMap : List (ℤ × ℤ)) (dayNumber : ℤ) (memberRoleIds : List ℤ) : Option ℤ :=
  (dayMap.find? fun entry => entry.1 ≠ dayNumber ∧ entry.2 ∈ memberRoleIds).map Prod.snd

/-- The last step of `_handle_assign`: add the target role and report. -/
def addTargetRole (discordId targetRoleId : ℤ) (removedIds : List ℤ) (removeFailed403 : Bool) :
    RoleM (Except PyError RoleSyncResult) := do
  match ← addRoles discordId targetRoleId with
  | .error .forbidden => return .ok ⟨.failed, [], removedIds, none⟩
  | .error error => return .error (.discord error)
  | .ok () =>
      if removeFailed403 then
        return .ok ⟨.partially, [targetRoleId], [], some REASON_REMOVE_OTHER_DAY_FAILED_403⟩
      else
        return .ok ⟨.applied, [targetRoleId], removedIds, none⟩

/-- The removal of the other day's role inside `_handle_assign`, with the
development seam that forces a 403 for one member. -/
def removeOtherDayRole (discordId otherDayRoleId targetRoleId : ℤ) :
    RoleM (Except PyError RoleSyncResult) := do
  let forcePartialId ← environForcePartial
  -- the seam makes no call: it reports the removal as refused
  if forcePartialId = some (toString discordId) then
    addTargetRole discordId targetRoleId [] true
  else
    match ← removeRoles discordId otherDayRoleId with
    | .error .forbidden => addTargetRole discordId targetRoleId [] true
    | .error error => return .error (.discord error)
    | .ok () => addTargetRole discordId targetRoleId [otherDayRoleId] false

/-- `_handle_assign`. -/
def handleAssign (discordId dayNumber : ℤ) (dayMap : List (ℤ × ℤ)) :
    RoleM (Except PyError RoleSyncResult) :=
  match dayMap.lookup dayNumber with
  | none => return .ok (.skip REASON_ROLE_NOT_SEEDED)
  | some targetRoleId => do
      if ← getRole targetRoleId then
        match ← getMember discordId with
        | none => return .ok (.skip REASON_MEMBER_NOT_IN_GUILD)
        | some memberRoleIds =>
            if targetRoleId ∈ memberRoleIds then
              return .ok (.skip REASON_ALREADY_HAS_ROLE)
            else
              -- only the first other day of the map loses its role
              match otherDayRole dayMap dayNumber memberRoleIds with
              | none => addTargetRole discordId targetRoleId [] false
              | some otherDayRoleId => removeOtherDayRole discordId otherDayRoleId targetRoleId
      else
        return .ok (.skip REASON_ROLE_NOT_SEEDED)

/-- `_handle_unassign`. -/
def handleUnassign (discordId : ℤ) (dayNumber : Option ℤ) (dayMap : List (ℤ × ℤ)) :
    RoleM (Except PyError RoleSyncResult) :=
  match dayNumber.bind (dayMap.lookup ·) with
  | none => return .ok (.skip REASON_ROLE_NOT_SEEDED)
  | some targetRoleId => do
      if ← getRole targetRoleId then
        match ← getMember discordId with
        | none => return .ok (.skip REASON_MEMBER_NOT_IN_GUILD)
        | some memberRoleIds =>
            if targetRoleId ∉ memberRoleIds then
              return .ok (.skip REASON_ALREADY_LACKS_ROLE)
            else
              match ← removeRoles discordId targetRoleId with
              | .error .forbidden => return .ok ⟨.failed, [], [], none⟩
              | .error error => return .error (.discord error)
              | .ok () => return .ok ⟨.applied, [], [targetRoleId], none⟩
      else
        return .ok (.skip REASON_ROLE_NOT_SEEDED)

/-- What `_load_day_role_map` makes of the rows of a guild. -/
def dayMapOf (rows : List DayRoleMap) : List (ℤ × ℤ) :=
  rows.map fun row => (row.dayNumber, row.discordRoleId)

/-- `apply_day_role`. -/
def applyDayRole (guildId discordId : ℤ) (action : Action) (dayNumber : Option ℤ) :
    RoleM (Except PyError RoleSyncResult) :=
  match action, dayNumber with
  -- no validated request gets here
  | .assign, none => return .error .valueError
  | .assign, some dayNumber => do
      let rows ← selectDayRoleMap guildId
      handleAssign discordId dayNumber (dayMapOf rows)
  | .unassign, dayNumber => do
      let rows ← selectDayRoleMap guildId
      handleUnassign discordId dayNumber (dayMapOf rows)

end MomBot.Roles
