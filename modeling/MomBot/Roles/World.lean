import Mathlib.Logic.Function.Basic
import MomBot.Cooperative.Coroutine
import MomBot.Discord
import MomBot.Python.Int

/-!
# What the day-role code reads, writes and calls

The two tables (`day_role_map` and `member_role_sync_state`), the guild cache of
the Discord client, and the two awaited calls that change a member's roles.
`roleMachine` says what each of them does to a `World`: a role call that returns
changes the cached member, one that raises changes nothing.
-/

namespace MomBot.Roles

open Cooperative

/-- The two actions of a request. -/
inductive Action where
  | assign
  | unassign
  deriving DecidableEq, Repr

/-- The wire form, which is also what the database column holds. -/
def Action.text : Action → String
  | assign => "assign"
  | unassign => "unassign"

/-- The four statuses of a response. -/
inductive Status where
  | applied
  | skipped
  | partially
  | failed
  deriving DecidableEq, Repr

/-- The wire form, which is also what the database column holds. -/
def Status.text : Status → String
  | applied => "applied"
  | skipped => "skipped"
  | partially => "partial"
  | failed => "failed"

/-- The validation of a status against its literal type. -/
def Status.ofText? (text : String) : Option Status :=
  [applied, skipped, partially, failed].find? fun status => status.text = text

@[simp] theorem Status.ofText?_text (status : Status) :
    Status.ofText? status.text = some status := by
  cases status <;> decide

/-! ## Rows and cache -/

/-- A row of `day_role_map`, less the columns that nothing here reads. -/
structure DayRoleMap where
  guildId : ℤ
  dayNumber : ℤ
  discordRoleId : ℤ
  deriving DecidableEq, Repr

/-- The table: one row for each guild and day. -/
structure DayRoleTable where
  rows : List DayRoleMap
  primaryKey : (rows.map fun row => (row.guildId, row.dayNumber)).Nodup

/-- A row of `member_role_sync_state`. -/
structure MemberRoleSyncState where
  discordId : String
  lastAssignedAt : String
  lastAction : String
  lastDayNumber : Option ℤ
  lastCorrelationId : String
  lastResponseStatus : String
  lastResponseAdded : String
  lastResponseRemoved : String
  lastResponseReason : Option String
  deriving DecidableEq, Repr

/-- The guild cache: the live roles, and the roles of every cached member. -/
structure Guild where
  roles : List ℤ
  members : ℤ → Option (List ℤ)

/-- What a request reads and writes outside its handler. -/
structure World where
  states : String → Option MemberRoleSyncState
  dayRoleMap : DayRoleTable
  guild : Guild
  /-- `MOM_BOT_FORCE_PARTIAL_FOR_DISCORD_ID`. -/
  forcePartial : Option String

/-- Change the roles of one cached member. -/
def World.editRoles (w : World) (discordId : ℤ) (edit : List ℤ → List ℤ) : World :=
  { w with
    guild.members :=
      Function.update w.guild.members discordId ((w.guild.members discordId).map edit) }

/-! ## Operations and calls -/

/-- The database, the guild cache and the environment. -/
inductive RoleOp where
  | sessionGet (discordId : String)
  | upsert (row : MemberRoleSyncState)
  | selectDayRoleMap (guildId : ℤ)
  | getRole (roleId : ℤ)
  | getMember (discordId : ℤ)
  | environForcePartial
  deriving DecidableEq

/-- The calls of Discord. -/
inductive RoleCall where
  | addRoles (discordId roleId : ℤ)
  | removeRoles (discordId roleId : ℤ)
  deriving DecidableEq, Repr

/-- `getRole` answers whether the guild has the role, `getMember` the ids of the
roles of the cached member. -/
def RoleOp.Res : RoleOp → Type
  | sessionGet _ => Option MemberRoleSyncState
  | upsert _ => Unit
  | selectDayRoleMap _ => List DayRoleMap
  | getRole _ => Bool
  | getMember _ => Option (List ℤ)
  | environForcePartial => Option String

/-- Everything that a request asks. -/
abbrev RoleEffects : Effects where
  Op := RoleOp
  Res := RoleOp.Res
  Call := RoleCall
  Ans := fun _ => Outcome

/-- An exception that leaves the handler. -/
inductive PyError where
  | valueError
  | validationError
  | loadsError
  | discord (error : Raised)
  deriving DecidableEq, Repr

/-- A handler, or a part of one. -/
abbrev RoleM := Coroutine RoleEffects

/-- `session.get(MemberRoleSyncState, discord_id)`. -/
def sessionGet (discordId : String) : RoleM (Option MemberRoleSyncState) :=
  .perform (E := RoleEffects) (.sessionGet discordId)

/-- The UPSERT of the row, committed. -/
def upsert (row : MemberRoleSyncState) : RoleM Unit :=
  .perform (E := RoleEffects) (.upsert row)

/-- The query of `_load_day_role_map`. -/
def selectDayRoleMap (guildId : ℤ) : RoleM (List DayRoleMap) :=
  .perform (E := RoleEffects) (.selectDayRoleMap guildId)

/-- `guild.get_role`: whether the role is there. -/
def getRole (roleId : ℤ) : RoleM Bool :=
  .perform (E := RoleEffects) (.getRole roleId)

/-- `guild.get_member`, and the roles of the member. -/
def getMember (discordId : ℤ) : RoleM (Option (List ℤ)) :=
  .perform (E := RoleEffects) (.getMember discordId)

/-- `os.environ.get("MOM_BOT_FORCE_PARTIAL_FOR_DISCORD_ID")`. -/
def environForcePartial : RoleM (Option String) :=
  .perform (E := RoleEffects) .environForcePartial

/-- `member.add_roles`. -/
def addRoles (discordId roleId : ℤ) : RoleM Outcome :=
  .request (E := RoleEffects) (.addRoles discordId roleId)

/-- `member.remove_roles`. -/
def removeRoles (discordId roleId : ℤ) : RoleM Outcome :=
  .request (E := RoleEffects) (.removeRoles discordId roleId)

/-- A member's roles with one more. -/
def giveRole (roleId : ℤ) (roles : List ℤ) : List ℤ :=
  if roleId ∈ roles then roles else roles ++ [roleId]

/-- A member's roles without one. -/
def takeRole (roleId : ℤ) (roles : List ℤ) : List ℤ :=
  roles.filter (· ≠ roleId)

/-- A call that has succeeded has changed the roles. -/
def completeCall : RoleCall → Outcome → World → World
  | .addRoles discordId roleId, .ok (), w => w.editRoles discordId (giveRole roleId)
  | .removeRoles discordId roleId, .ok (), w => w.editRoles discordId (takeRole roleId)
  | _, .error _, w => w

/-- The row of its member is replaced. -/
def World.upsert (w : World) (row : MemberRoleSyncState) : World :=
  { w with states := Function.update w.states row.discordId (some row) }

/-- The database and the guild cache. -/
def roleMachine : Machine RoleEffects World where
  exec
    | .sessionGet discordId, w => (w.states discordId, w)
    | .upsert row, w => ((), w.upsert row)
    | .selectDayRoleMap guildId, w => (w.dayRoleMap.rows.filter fun row => row.guildId = guildId, w)
    | .getRole roleId, w => (decide (roleId ∈ w.guild.roles), w)
    | .getMember discordId, w => (w.guild.members discordId, w)
    | .environForcePartial, w => (w.forcePartial, w)
  issue := fun _ w => w
  complete := completeCall

/-! ## One step of a run -/

section Runs

variable {α : Type} {w w' : World} {trace : List (Exchange RoleEffects)} {value : α}

@[simp] theorem runs_sessionGet {discordId : String} {f : Option MemberRoleSyncState → RoleM α} :
    (sessionGet discordId >>= f).Runs roleMachine w trace value w' ↔
      (f (w.states discordId)).Runs roleMachine w trace value w' :=
  Iff.rfl

@[simp] theorem runs_upsert {row : MemberRoleSyncState} {f : Unit → RoleM α} :
    (upsert row >>= f).Runs roleMachine w trace value w' ↔
      (f ()).Runs roleMachine (w.upsert row) trace value w' :=
  Iff.rfl

@[simp] theorem runs_selectDayRoleMap {guildId : ℤ} {f : List DayRoleMap → RoleM α} :
    (selectDayRoleMap guildId >>= f).Runs roleMachine w trace value w' ↔
      (f (w.dayRoleMap.rows.filter fun row => row.guildId = guildId)).Runs roleMachine w trace
        value w' :=
  Iff.rfl

@[simp] theorem runs_getRole {roleId : ℤ} {f : Bool → RoleM α} :
    (getRole roleId >>= f).Runs roleMachine w trace value w' ↔
      (f (decide (roleId ∈ w.guild.roles))).Runs roleMachine w trace value w' :=
  Iff.rfl

@[simp] theorem runs_getMember {discordId : ℤ} {f : Option (List ℤ) → RoleM α} :
    (getMember discordId >>= f).Runs roleMachine w trace value w' ↔
      (f (w.guild.members discordId)).Runs roleMachine w trace value w' :=
  Iff.rfl

@[simp] theorem runs_environForcePartial {f : Option String → RoleM α} :
    (environForcePartial >>= f).Runs roleMachine w trace value w' ↔
      (f w.forcePartial).Runs roleMachine w trace value w' :=
  Iff.rfl

theorem runs_addRoles {discordId roleId : ℤ} {f : Outcome → RoleM α} :
    (addRoles discordId roleId >>= f).Runs roleMachine w trace value w' ↔
      ∃ (outcome : Outcome) (rest : List (Exchange RoleEffects)),
        trace = ⟨.addRoles discordId roleId, outcome⟩ :: rest ∧
        (f outcome).Runs roleMachine (completeCall (.addRoles discordId roleId) outcome w) rest
          value w' :=
  Iff.rfl

theorem runs_removeRoles {discordId roleId : ℤ} {f : Outcome → RoleM α} :
    (removeRoles discordId roleId >>= f).Runs roleMachine w trace value w' ↔
      ∃ (outcome : Outcome) (rest : List (Exchange RoleEffects)),
        trace = ⟨.removeRoles discordId roleId, outcome⟩ :: rest ∧
        (f outcome).Runs roleMachine (completeCall (.removeRoles discordId roleId) outcome w) rest
          value w' :=
  Iff.rfl

end Runs

/-! ## What a step needs to be permitted -/

section Uses

variable {α : Type} {permits : RoleOp → Prop} {permitsCall : RoleCall → Prop}

@[simp] theorem uses_sessionGet {discordId : String} {f : Option MemberRoleSyncState → RoleM α} :
    (sessionGet discordId >>= f).Uses permits permitsCall ↔
      permits (.sessionGet discordId) ∧ ∀ stored, (f stored).Uses permits permitsCall :=
  Iff.rfl

@[simp] theorem uses_upsert {row : MemberRoleSyncState} {f : Unit → RoleM α} :
    (upsert row >>= f).Uses permits permitsCall ↔
      permits (.upsert row) ∧ (f ()).Uses permits permitsCall :=
  ⟨fun h => ⟨h.1, h.2 ()⟩, fun h => ⟨h.1, fun _ => h.2⟩⟩

@[simp] theorem uses_selectDayRoleMap {guildId : ℤ} {f : List DayRoleMap → RoleM α} :
    (selectDayRoleMap guildId >>= f).Uses permits permitsCall ↔
      permits (.selectDayRoleMap guildId) ∧ ∀ rows, (f rows).Uses permits permitsCall :=
  Iff.rfl

@[simp] theorem uses_getRole {roleId : ℤ} {f : Bool → RoleM α} :
    (getRole roleId >>= f).Uses permits permitsCall ↔
      permits (.getRole roleId) ∧ ∀ live, (f live).Uses permits permitsCall :=
  Iff.rfl

@[simp] theorem uses_getMember {discordId : ℤ} {f : Option (List ℤ) → RoleM α} :
    (getMember discordId >>= f).Uses permits permitsCall ↔
      permits (.getMember discordId) ∧ ∀ member, (f member).Uses permits permitsCall :=
  Iff.rfl

@[simp] theorem uses_environForcePartial {f : Option String → RoleM α} :
    (environForcePartial >>= f).Uses permits permitsCall ↔
      permits .environForcePartial ∧ ∀ forced, (f forced).Uses permits permitsCall :=
  Iff.rfl

@[simp] theorem uses_addRoles {discordId roleId : ℤ} {f : Outcome → RoleM α} :
    (addRoles discordId roleId >>= f).Uses permits permitsCall ↔
      permitsCall (.addRoles discordId roleId) ∧
        ∀ outcome, (f outcome).Uses permits permitsCall :=
  Iff.rfl

@[simp] theorem uses_removeRoles {discordId roleId : ℤ} {f : Outcome → RoleM α} :
    (removeRoles discordId roleId >>= f).Uses permits permitsCall ↔
      permitsCall (.removeRoles discordId roleId) ∧
        ∀ outcome, (f outcome).Uses permits permitsCall :=
  Iff.rfl

end Uses

end MomBot.Roles
