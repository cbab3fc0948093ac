import MomBot.Python.Json
import MomBot.Roles.Service

/-!
# `sidecar/app.py`: the role-sync endpoint

`roleSync` is the part of the handler that runs while the member's lock is
held: the look-up of the stored row, the replay and stale-write checks, the
resolution of the day to remove, the role service and the write of the row.
Logging and tracing are left out.
-/

namespace MomBot.Sidecar

open Cooperative Roles Python

/-- `RoleSyncRequest`, a payload that passed validation. -/
structure RoleSyncRequest where
  discordId : String
  siegeId : ℤ
  dayNumber : Option ℤ
  action : Action
  assignedAt : String
  correlationId : String
  /-- `_validate_day_number_conditionality`. -/
  dayNumberConditionality : dayNumber.isSome ↔ action = .assign
  deriving DecidableEq

/-- `RoleSyncResponse`. -/
structure RoleSyncResponse where
  status : Status
  added : List ℤ
  removed : List ℤ
  reason : Option String
  lastAssignedAt : Option String
  deriving DecidableEq, Repr

/-- The response to a result of the service. -/
def RoleSyncResponse.ofResult (result : RoleSyncResult) : RoleSyncResponse :=
  ⟨result.status, result.added, result.removed, result.reason, none⟩

variable (codec : JsonCodec)

/-- The stored row carries the key of the request. -/
def keyMatches (stored : MemberRoleSyncState) (body : RoleSyncRequest) : Prop :=
  stored.lastAssignedAt = body.assignedAt ∧ stored.lastAction = body.action.text ∧
    stored.lastDayNumber = body.dayNumber

instance (stored : MemberRoleSyncState) (body : RoleSyncRequest) :
    Decidable (keyMatches stored body) := by
  unfold keyMatches
  infer_instance

/-- The response of a replay, `ValidationError` where the response model rejects it. -/
def storedResponse (stored : MemberRoleSyncState) (storedAdded storedRemoved : JsonValue) :
    Except PyError RoleSyncResponse :=
  match Status.ofText? stored.lastResponseStatus, codec.intList storedAdded,
    codec.intList storedRemoved with
  | some status, some added, some removed =>
      .ok ⟨status, added, removed, stored.lastResponseReason, none⟩
  | _, _, _ => .error .validationError

/-- Step 1, the exact replay: the stored response, or `none` where the stored text
is not JSON and the request goes on as a fresh write. -/
def replay (stored : MemberRoleSyncState) : Option (Except PyError RoleSyncResponse) :=
  match codec.loads stored.lastResponseAdded with
  -- only a `JSONDecodeError` is caught, a number that is too long is not
  | .error .jsonDecodeError => none
  | .error .tooLarge => some (.error .loadsError)
  | .ok storedAdded =>
      match codec.loads stored.lastResponseRemoved with
      | .error .jsonDecodeError => none
      | .error .tooLarge => some (.error .loadsError)
      | .ok storedRemoved => some (storedResponse codec stored storedAdded storedRemoved)

/-- Step 2, the stale-write check. -/
def staleWrite (stored : MemberRoleSyncState) (body : RoleSyncRequest) :
    Option (Except PyError RoleSyncResponse) :=
  if body.assignedAt < stored.lastAssignedAt then
    some (.ok ⟨.skipped, [], [], some "stale_write", some stored.lastAssignedAt⟩)
  else none

/-- Steps 1 and 2 together: the answer that needs no role service. -/
def storedAnswer (stored : MemberRoleSyncState) (body : RoleSyncRequest) :
    Option (Except PyError RoleSyncResponse) :=
  (if keyMatches stored body then replay codec stored else none) <|> staleWrite stored body

/-- The row that a fresh write leaves. -/
def freshRow (body : RoleSyncRequest) (result : RoleSyncResult) : MemberRoleSyncState where
  discordId := body.discordId
  lastAssignedAt := body.assignedAt
  lastAction := body.action.text
  lastDayNumber := body.dayNumber
  lastCorrelationId := body.correlationId
  lastResponseStatus := result.status.text
  lastResponseAdded := codec.dumps result.added
  lastResponseRemoved := codec.dumps result.removed
  lastResponseReason := result.reason

/-- The service call and the UPSERT of step 3. -/
def invokeService (guildId : ℤ) (body : RoleSyncRequest) (resolvedDayNumber : Option ℤ) :
    RoleM (Except PyError RoleSyncResponse) := do
  match int body.discordId with
  | none => return .error .valueError
  | some discordId =>
      match ← applyDayRole guildId discordId body.action resolvedDayNumber with
      | .error error => return .error error
      | .ok result => do
          upsert (freshRow codec body result)
          return .ok (.ofResult result)

/-- Step 3, the fresh write: resolve the day, call the service, write the row.
An unassign without a recorded day is answered at once, and writes nothing. -/
def freshWrite (guildId : ℤ) (body : RoleSyncRequest) (priorDayNumber : Option ℤ) :
    RoleM (Except PyError RoleSyncResponse) :=
  if body.action = .unassign ∧ body.dayNumber = none then
    -- the day to remove is the one that the row records
    match priorDayNumber with
    | none => return .ok ⟨.skipped, [], [], some REASON_ALREADY_LACKS_ROLE, none⟩
    | some day => invokeService codec guildId body (some day)
  else
    invokeService codec guildId body body.dayNumber

/-- The handler once the stored row is read. -/
def afterLookup (guildId : ℤ) (body : RoleSyncRequest) (stored : Option MemberRoleSyncState) :
    RoleM (Except PyError RoleSyncResponse) :=
  match stored.bind fun row => storedAnswer codec row body with
  | some answer => return answer
  | none => freshWrite codec guildId body (stored.bind MemberRoleSyncState.lastDayNumber)

/-- `role_sync`, while the lock of `body.discord_id` is held. -/
def roleSync (guildId : ℤ) (body : RoleSyncRequest) : RoleM (Except PyError RoleSyncResponse) := do
  let stored ← sessionGet body.discordId
  afterLookup codec guildId body stored

end MomBot.Sidecar
