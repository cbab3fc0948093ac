import Mathlib.Data.Set.Function
import MomBot.Cooperative.Serial
import MomBot.Sidecar.Handling

/-!
# Concurrent requests

`_get_lock` finds the lock of a `discord_id` in a registry that drops a lock
once no task refers to it.  `roleSyncTasks` is the endpoint as a program of
tasks behind these locks, for any set of ids that denote distinct members.

What a request reads and writes is the part of its own member (`MemberView`), so
`Serial.lean` applies: the requests of a member are handled one after another.
Everything that is true of one request on its own then carries over to every
interleaving, in particular that the row never goes back (`states_le_of_step`).
-/

namespace MomBot.Sidecar

open Cooperative Roles Python

variable (codec : JsonCodec) (guildId : ℤ) (ids : Set String)

/-- Distinct ids denote distinct members. -/
def DistinctMembers : Prop :=
  ∀ id ∈ ids, ∀ id' ∈ ids, ∀ member, int id = some member → int id' = some member → id = id'

/-- The endpoint for the requests of `ids`, with `_get_lock` and the lock around
the handler.  A Discord call returns or raises anything; nothing else changes
the rows, the roles or the day map. -/
def roleSyncTasks : Guarded RoleEffects World ids {body : RoleSyncRequest // body.discordId ∈ ids}
    (Except PyError RoleSyncResponse) where
  machine := roleMachine
  key body := ⟨body.1.discordId, body.2⟩
  early _ _ := none
  body body := roleSync codec guildId body.1
  answers _ _ := True
  outside _ _ := False

/-- The state of the tasks. -/
abbrev Requests (ι : Type) :=
  System RoleEffects World ids ι {body : RoleSyncRequest // body.discordId ∈ ids}
    (Except PyError RoleSyncResponse)

/-! ## The part of one member -/

/-- What the requests of one `discord_id` depend on. -/
structure MemberView where
  state : Option MemberRoleSyncState
  roles : Option (List ℤ)
  dayRoleMap : DayRoleTable
  liveRoles : List ℤ
  forcePartial : Option String

/-- What the world holds for a `discord_id`. -/
def memberView (id : String) (w : World) : MemberView where
  state := w.states id
  roles := (int id).bind w.guild.members
  dayRoleMap := w.dayRoleMap
  liveRoles := w.guild.roles
  forcePartial := w.forcePartial

/-- The operations of a request for `id`. -/
def permits (id : String) : RoleOp → Prop
  | .sessionGet discordId => discordId = id
  | .upsert row => row.discordId = id
  | .getMember discordId => int id = some discordId
  | _ => True

/-- The Discord calls of a request for `id`. -/
def permitsCall (id : String) : RoleCall → Prop
  | .addRoles discordId _ => int id = some discordId
  | .removeRoles discordId _ => int id = some discordId

variable {codec guildId ids}

/-- The handler uses what its parts use. -/
theorem uses_roleSync {permits : RoleOp → Prop} {permitsCall : RoleCall → Prop}
    {body : RoleSyncRequest} (hget : permits (.sessionGet body.discordId))
    (hupsert : (int body.discordId).isSome →
      ∀ result, permits (.upsert (freshRow codec body result)))
    (hservice : ∀ member, int body.discordId = some member →
      ServicePermits permits permitsCall member) :
    (roleSync codec guildId body).Uses permits permitsCall := by
  have hinvoke : ∀ day, (invokeService codec guildId body day).Uses permits permitsCall := by
    intro day
    unfold invokeService
    split
    · trivial
    · next member hmember =>
        refine (uses_applyDayRole (hservice member hmember) ..).bind fun result => ?_
        split
        · trivial
        · rw [uses_upsert]
          exact ⟨hupsert (by rw [hmember, Option.isSome_some]) _, trivial⟩
  rw [roleSync, uses_sessionGet]
  refine ⟨hget, fun stored => ?_⟩
  unfold afterLookup
  split
  · trivial
  · unfold freshWrite
    split
    · split
      · trivial
      · exact hinvoke _
    · exact hinvoke _

/-- A role call about one member leaves what concerns another. -/
private theorem memberView_editRoles_of_ne {id : String} {member : ℤ} (w : World)
    (edit : List ℤ → List ℤ) (hne : int id ≠ some member) :
    memberView id (w.editRoles member edit) = memberView id w := by
  have hroles : (int id).bind (w.editRoles member edit).guild.members =
      (int id).bind w.guild.members := by
    cases hid : int id with
    | none => rfl
    | some other =>
        have hne' : other ≠ member := fun heq => hne (by rw [hid, heq])
        simp [World.editRoles, hne']
  simp only [memberView, hroles]
  rfl

/-- What a role call does to a member depends on that member's part only. -/
private theorem memberView_editRoles_congr {id : String} {member : ℤ} {w w' : World}
    (edit : List ℤ → List ℤ) (hid : int id = some member) (h : memberView id w = memberView id w') :
    memberView id (w.editRoles member edit) = memberView id (w'.editRoles member edit) := by
  simp only [memberView, hid, Option.bind_some, MemberView.mk.injEq, World.editRoles,
    Function.update_self] at h ⊢
  obtain ⟨hstate, hroles, hrest⟩ := h
  exact ⟨hstate, by rw [hroles], hrest⟩

/-- An operation of a request sees the part of its member only. -/
private theorem exec_congr_memberView {id : String} {o : RoleOp} {w w' : World}
    (hpermits : permits id o) (hview : memberView id w = memberView id w') :
    (roleMachine.exec o w).1 = (roleMachine.exec o w').1 ∧
      memberView id (roleMachine.exec o w).2 = memberView id (roleMachine.exec o w').2 := by
  obtain ⟨hstate, hroles, hmap, hlive, hforce⟩ := MemberView.mk.inj hview
  cases o with
  | sessionGet discordId =>
      obtain rfl : discordId = id := hpermits
      exact ⟨hstate, hview⟩
  | upsert row =>
      have hrow : row.discordId = id := hpermits
      refine ⟨rfl, ?_⟩
      show memberView id (w.upsert row) = memberView id (w'.upsert row)
      simp only [memberView, World.upsert, ← hrow, Function.update_self, MemberView.mk.injEq]
      rw [hrow]
      exact ⟨trivial, hroles, hmap, hlive, hforce⟩
  | selectDayRoleMap g =>
      refine ⟨?_, hview⟩
      show w.dayRoleMap.rows.filter _ = w'.dayRoleMap.rows.filter _
      rw [hmap]
  | getRole roleId =>
      refine ⟨?_, hview⟩
      show decide (roleId ∈ w.guild.roles) = decide (roleId ∈ w'.guild.roles)
      rw [hlive]
  | getMember member =>
      have hid : int id = some member := hpermits
      rw [hid, Option.bind_some, Option.bind_some] at hroles
      exact ⟨hroles, hview⟩
  | environForcePartial => exact ⟨hforce, hview⟩

/-- Only the UPSERT writes, and it writes the row of its own member. -/
private theorem memberView_exec_of_ne {id id' : String} {o : RoleOp} (w : World)
    (hpermits : permits id o) (hne : id' ≠ id) :
    memberView id' (roleMachine.exec o w).2 = memberView id' w := by
  cases o with
  | upsert row =>
      have hrow : row.discordId = id := hpermits
      have hne' : id' ≠ row.discordId := by rwa [hrow]
      show memberView id' (w.upsert row) = memberView id' w
      simp [memberView, World.upsert, hne']
  | sessionGet discordId => rfl
  | selectDayRoleMap g => rfl
  | getRole roleId => rfl
  | getMember member => rfl
  | environForcePartial => rfl

private theorem complete_congr_memberView {id : String} {call : RoleCall}
    {answer : RoleEffects.Ans call} {w w' : World} (hpermits : permitsCall id call)
    (hview : memberView id w = memberView id w') :
    memberView id (roleMachine.complete call answer w) =
      memberView id (roleMachine.complete call answer w') := by
  cases call with
  | addRoles member roleId =>
      cases answer with
      | error error => exact hview
      | ok => exact memberView_editRoles_congr _ hpermits hview
  | removeRoles member roleId =>
      cases answer with
      | error error => exact hview
      | ok => exact memberView_editRoles_congr _ hpermits hview

private theorem memberView_complete_of_ne {id id' : String} {call : RoleCall}
    {answer : RoleEffects.Ans call} (w : World) (hpermits : permitsCall id call)
    (hne : ∀ {member}, int id = some member → int id' ≠ some member) :
    memberView id' (roleMachine.complete call answer w) = memberView id' w := by
  cases call with
  | addRoles member roleId =>
      cases answer with
      | error error => rfl
      | ok => exact memberView_editRoles_of_ne w _ (hne hpermits)
  | removeRoles member roleId =>
      cases answer with
      | error error => rfl
      | ok => exact memberView_editRoles_of_ne w _ (hne hpermits)

/-- The endpoint works on the part of one member at a time. -/
theorem roleSyncTasks_local (hdistinct : DistinctMembers ids) :
    Local (roleSyncTasks codec guildId ids) (fun id w => memberView id w)
      (fun id => permits id) (fun id => permitsCall id) where
  uses body := uses_roleSync (by rfl) (fun _ _ => rfl) fun member hmember =>
    ⟨fun _ => trivial, fun _ => trivial, hmember, trivial, fun _ => hmember, fun _ => hmember⟩
  exec_same hpermits hview := exec_congr_memberView hpermits hview
  exec_other {_ _ _ w} hpermits hne :=
    memberView_exec_of_ne w hpermits fun heq => hne (Subtype.ext heq)
  issue_same _ hview := hview
  issue_other _ _ := rfl
  complete_same hpermits hview := complete_congr_memberView hpermits hview
  complete_other {id id' _ _ w} hpermits hne := by
    apply memberView_complete_of_ne w hpermits
    -- two ids of one member would be one id
    intro member hmember hmember'
    exact hne (Subtype.ext (hdistinct _ id'.2 _ id.2 member hmember' hmember))
  outside h := h.elim

/-! ## The row while a request is handled -/

variable {body : RoleSyncRequest} {w w' : World} {trace : List (Exchange RoleEffects)}
  {rest : RoleM (Except PyError RoleSyncResponse)}

/-- The operations after the look-up: they write the request's own token. -/
private def writesToken (body : RoleSyncRequest) : RoleOp → Prop
  | .upsert row => row.discordId = body.discordId ∧ row.lastAssignedAt = body.assignedAt
  | _ => True

/-- While only such operations follow, no row is newer than the request. -/
private theorem state_le_of_reaches {p : RoleM (Except PyError RoleSyncResponse)}
    (hreaches : p.Reaches roleMachine w trace rest w')
    (huses : p.Uses (writesToken body) fun _ => True)
    (hle : ∀ row, w.states body.discordId = some row → row.lastAssignedAt ≤ body.assignedAt) :
    ∀ row, w'.states body.discordId = some row → row.lastAssignedAt ≤ body.assignedAt := by
  induction hreaches with
  | start => exact hle
  | @op trace o next w' hreaches ih =>
      have hpermits := (hreaches.uses huses).1
      cases o with
      | upsert row' =>
          obtain ⟨hid, htoken⟩ := hpermits
          intro row hrow
          have hrow' : Function.update w'.states row'.discordId (some row') body.discordId =
              some row := hrow
          rw [hid, Function.update_self, Option.some.injEq] at hrow'
          rw [← hrow', htoken]
      | sessionGet discordId => exact ih
      | selectDayRoleMap g => exact ih
      | getRole roleId => exact ih
      | getMember member => exact ih
      | environForcePartial => exact ih
  | @await trace call next w' answer hreaches ih =>
      cases call <;> cases answer <;> exact ih

/-- **A request never writes an older token.** -/
theorem le_of_reaches_upsert {row : MemberRoleSyncState}
    {next : Unit → RoleM (Except PyError RoleSyncResponse)}
    (hreaches : (roleSync codec guildId body).Reaches roleMachine w trace
      (.op (.upsert row) next) w') :
    row.discordId = body.discordId ∧
      ∀ old, w'.states body.discordId = some old → old.lastAssignedAt ≤ row.lastAssignedAt := by
  rcases Coroutine.Reaches.of_op hreaches with ⟨-, heq, -⟩ | hreaches
  · exact nomatch (Coroutine.op.inj heq).1
  · have huses : (roleSync codec guildId body).Uses (writesToken body) fun _ => True :=
      uses_roleSync trivial (fun _ _ => ⟨rfl, rfl⟩) fun _ _ =>
        ⟨fun _ => trivial, fun _ => trivial, trivial, trivial, fun _ => trivial, fun _ => trivial⟩
    have hafter := (uses_sessionGet.mp huses).2 (w.states body.discordId)
    have hreaches : (afterLookup codec guildId body (w.states body.discordId)).Reaches roleMachine w
        trace (.op (.upsert row) next) w' := hreaches
    obtain ⟨hid, htoken⟩ := (hreaches.uses hafter).1
    refine ⟨hid, fun old hold => ?_⟩
    rw [htoken]
    cases hanswer : rowAnswer codec w body with
    | some answer =>
        -- the row answered, so nothing is written
        rw [rowAnswer] at hanswer
        simp only [afterLookup, hanswer] at hreaches
        exact absurd (Coroutine.Reaches.of_done hreaches).1 (by simp)
    | none =>
        exact state_le_of_reaches hreaches hafter
          (fun row hrow => le_of_rowAnswer_none hrow hanswer) old hold

/-! ## Every interleaving -/

section Run

variable {ι : Type} [DecidableEq ι] {w₀ : World} {s s' : Requests ids ι}

theorem serialized_requests (hdistinct : DistinctMembers ids)
    (h : (roleSyncTasks codec guildId ids).Reachable w₀ s) (id : ids) :
    Serialized (roleSyncTasks codec guildId ids) (fun id w => memberView id w) w₀ s id :=
  serialized_of_reachable (roleSyncTasks_local hdistinct) h id

/-- **Step lemma.**  No stored token goes back. -/
theorem states_le_of_step (hdistinct : DistinctMembers ids)
    (h : (roleSyncTasks codec guildId ids).Reachable w₀ s)
    (hstep : Guarded.Step (roleSyncTasks codec guildId ids) s s') {id : String}
    {row : MemberRoleSyncState} (hrow : s.shared.states id = some row) :
    ∃ row', s'.shared.states id = some row' ∧ row.lastAssignedAt ≤ row'.lastAssignedAt := by
  cases hstep with
  | early => exact ⟨row, hrow, le_rfl⟩
  | arrive => exact ⟨row, by rwa [System.enter_shared], le_rfl⟩
  | cancel => exact ⟨row, hrow, le_rfl⟩
  | resume => exact ⟨row, by rwa [System.enter_shared], le_rfl⟩
  | @op i x o next hinside =>
      cases o with
      | upsert row' =>
          obtain ⟨_, _, trace, w, _, hreaches, hview⟩ :=
            (serialized_requests hdistinct h ⟨x.1.discordId, x.2⟩).reaches (i := i) (x := x)
              (by rw [hinside]; rfl)
          obtain ⟨hid, hle⟩ := le_of_reaches_upsert hreaches
          rw [hinside] at hview
          have hstate : s.shared.states x.1.discordId = w.states x.1.discordId :=
            congrArg MemberView.state hview
          by_cases heq : id = row'.discordId
          · refine ⟨row', ?_, hle row ?_⟩
            · rw [heq]
              exact Function.update_self ..
            · rw [← hstate, ← hid, ← heq, hrow]
          · exact ⟨row, (Function.update_of_ne heq ..).trans hrow, le_rfl⟩
      | sessionGet discordId => exact ⟨row, hrow, le_rfl⟩
      | selectDayRoleMap g => exact ⟨row, hrow, le_rfl⟩
      | getRole roleId => exact ⟨row, hrow, le_rfl⟩
      | getMember member => exact ⟨row, hrow, le_rfl⟩
      | environForcePartial => exact ⟨row, hrow, le_rfl⟩
  | issue => exact ⟨row, hrow, le_rfl⟩
  | @answered i x call next answer _ _ =>
      refine ⟨row, ?_, le_rfl⟩
      cases call <;> cases answer <;> exact hrow
  | leave => exact ⟨row, hrow, le_rfl⟩
  | drop => exact ⟨row, hrow, le_rfl⟩
  | outside h => exact h.elim

/-- The requests of one id that returned, one after another. -/
theorem exists_entries (hdistinct : DistinctMembers ids)
    (h : (roleSyncTasks codec guildId ids).Reachable w₀ s) (id : ids) :
    ∃ entries w, (roleSyncTasks codec guildId ids).Serial w₀ (entries : List (Entry _ ι _ _)) w ∧
      (∀ entry ∈ entries, entry.param.1.discordId = id ∧
        s.phase entry.task = .finished entry.param (some entry.value)) ∧
      (∀ i x value, s.phase i = .finished x (some value) → x.1.discordId = id →
        ∃ entry ∈ entries, entry.task = i) ∧
      entries.map Entry.task <+: s.order id ∧ entries.flatMap Entry.trace <+: s.calls id ∧
      ((∀ i, ¬ (s.phase i).Holds (roleSyncTasks codec guildId ids).key id) →
        s.order id = entries.map Entry.task ∧ s.calls id = entries.flatMap Entry.trace ∧
        s.shared.states id = w.states id) := by
  obtain ⟨entries, w, hserialized⟩ := serialized_requests hdistinct h id
  -- the order and the calls: the entries, and the task that is inside
  have hsplit : (∃ tasks, s.order id = entries.map Entry.task ++ tasks ∧
      ∀ i ∈ tasks, (s.phase i).Holds (roleSyncTasks codec guildId ids).key id) ∧
      ∃ trace, s.calls id = entries.flatMap Entry.trace ++ trace := by
    by_cases hbusy : ∃ i, (s.phase i).Holds (roleSyncTasks codec guildId ids).key id
    · obtain ⟨i, x, rest, hrest, hkey⟩ := hbusy
      obtain ⟨horder, trace, _, _, hcalls, _⟩ := hserialized.busy i x rest hrest hkey
      refine ⟨⟨[i], horder, fun j hj => ?_⟩, trace, hcalls⟩
      rw [List.mem_singleton.mp hj]
      exact ⟨x, rest, hrest, hkey⟩
    · obtain ⟨horder, hcalls, -⟩ := hserialized.idle (not_exists.mp hbusy)
      exact ⟨⟨[], by rw [List.append_nil, horder], by simp⟩, [], by rw [List.append_nil, hcalls]⟩
  obtain ⟨⟨tasks, horder, htasks⟩, trace, hcalls⟩ := hsplit
  refine ⟨entries, w, hserialized.serial, fun entry hentry => ?_, fun i x value hi hid => ?_,
    ⟨tasks, horder.symm⟩, ⟨trace, hcalls.symm⟩, fun hidle => ?_⟩
  · obtain ⟨hkey, hfinished⟩ := hserialized.returned entry hentry
    exact ⟨congrArg Subtype.val hkey, hfinished⟩
  · have hmem := mem_order_of_entered (fun _ _ => rfl) h i x (by rw [hi]; rfl)
    have hkey : (roleSyncTasks codec guildId ids).key x = id := Subtype.ext hid
    rw [hkey, horder] at hmem
    rcases List.mem_append.mp hmem with hmem | hmem
    · obtain ⟨entry, hentry, heq⟩ := List.mem_map.mp hmem
      exact ⟨entry, hentry, heq⟩
    · obtain ⟨y, rest, hrest, -⟩ := htasks i hmem
      rw [hi] at hrest
      simp [Phase.remaining] at hrest
  · obtain ⟨horder, hcalls, hview⟩ := hserialized.idle hidle
    exact ⟨horder, hcalls, congrArg MemberView.state hview⟩

/-- A request that raises leaves the row as it found it. -/
theorem states_of_raised (hdistinct : DistinctMembers ids)
    (h : (roleSyncTasks codec guildId ids).Reachable w₀ s) {i : ι}
    {x : {body : RoleSyncRequest // body.discordId ∈ ids}} {error : PyError}
    (hraised : s.phase i = .inside x (.done (.error error))) :
    ∃ entries w, (roleSyncTasks codec guildId ids).Serial w₀ (entries : List (Entry _ ι _ _)) w ∧
      s.order ⟨x.1.discordId, x.2⟩ = entries.map Entry.task ++ [i] ∧
      s.shared.states x.1.discordId = w.states x.1.discordId := by
  obtain ⟨entries, w, hserialized⟩ := serialized_requests hdistinct h ⟨x.1.discordId, x.2⟩
  obtain ⟨horder, trace, w', hreaches, -, hview⟩ :=
    hserialized.busy i x _ (by rw [hraised]; rfl) rfl
  refine ⟨entries, w, hserialized.serial, horder, ?_⟩
  rw [hraised] at hview
  have hstate : s.shared.states x.1.discordId = w'.states x.1.discordId :=
    congrArg MemberView.state hview
  rw [hstate, (runs_roleSync hreaches.runs).states_of_error]

/-- The lock of a request that returned or raised is free, or has gone to nobody yet. -/
theorem unlocked_of_leave (h : (roleSyncTasks codec guildId ids).Reachable w₀ s) {i : ι}
    {x : {body : RoleSyncRequest // body.discordId ∈ ids}}
    {value : Except PyError RoleSyncResponse} (hinside : s.phase i = .inside x (.done value))
    {l : ℕ} (hreg : (s.locks.release i).registry ⟨x.1.discordId, x.2⟩ = some l) :
    ((s.locks.release i).lock l).locked = false := by
  have hcoupled := coupled_of_reachable h
  have hcoupled' := hcoupled.step (.leave hinside)
  refine hcoupled'.unlocked hreg fun j hj => ?_
  by_cases hji : j = i
  · obtain ⟨y, rest, hrest, -⟩ := hj
    simp [System.setPhase, hji, Phase.remaining] at hrest
  · have hj' : (s.phase j).Holds (roleSyncTasks codec guildId ids).key ⟨x.1.discordId, x.2⟩ := by
      simpa [System.setPhase, hji] using hj
    exact hji (hcoupled.holder_unique hj' ⟨x, _, by rw [hinside]; rfl, rfl⟩)

/-- **Requests are serialized per member.**  In every reachable state of every
interleaving: at most one request of an id is between its look-up and its write;
the responses, the Discord calls and the row of an id are those of its requests
handled one after another in the order of the lock; no stored token ever goes
back; and a request that raises leaves the row as it found it and its lock
unlocked. -/
theorem roleSync_serialized (hdistinct : DistinctMembers ids)
    (h : (roleSyncTasks codec guildId ids).Reachable w₀ s) :
    (∀ i j x y p q, (s.phase i).remaining = some (x, p) → (s.phase j).remaining = some (y, q) →
      x.1.discordId = y.1.discordId → i = j) ∧
    (∀ id : ids, ∃ entries w,
      (roleSyncTasks codec guildId ids).Serial w₀ (entries : List (Entry _ ι _ _)) w ∧
      (∀ entry ∈ entries, entry.param.1.discordId = id ∧
        s.phase entry.task = .finished entry.param (some entry.value)) ∧
      (∀ i x value, s.phase i = .finished x (some value) → x.1.discordId = id →
        ∃ entry ∈ entries, entry.task = i) ∧
      entries.map Entry.task <+: s.order id ∧ entries.flatMap Entry.trace <+: s.calls id ∧
      ((∀ i, ¬ (s.phase i).Holds (roleSyncTasks codec guildId ids).key id) →
        s.order id = entries.map Entry.task ∧ s.calls id = entries.flatMap Entry.trace ∧
        s.shared.states id = w.states id)) ∧
    (∀ s' id row, Guarded.Step (roleSyncTasks codec guildId ids) s s' →
      s.shared.states id = some row →
      ∃ row', s'.shared.states id = some row' ∧ row.lastAssignedAt ≤ row'.lastAssignedAt) ∧
    (∀ i x error, s.phase i = .inside x (.done (.error error)) →
      (∃ entries w, (roleSyncTasks codec guildId ids).Serial w₀ (entries : List (Entry _ ι _ _)) w ∧
        s.order ⟨x.1.discordId, x.2⟩ = entries.map Entry.task ++ [i] ∧
        s.shared.states x.1.discordId = w.states x.1.discordId) ∧
      ∀ l, (s.locks.release i).registry ⟨x.1.discordId, x.2⟩ = some l →
        ((s.locks.release i).lock l).locked = false) := by
  refine ⟨fun i j x y p q hi hj hid => ?_, exists_entries hdistinct h, ?_, ?_⟩
  · exact (coupled_of_reachable h).holder_unique ⟨x, p, hi, rfl⟩ ⟨y, q, hj, Subtype.ext hid.symm⟩
  · intro s' id row hstep hrow
    exact states_le_of_step hdistinct h hstep hrow
  · intro i x error hraised
    exact ⟨states_of_raised hdistinct h hraised, fun l hreg => unlocked_of_leave h hraised hreg⟩

end Run

/-- Two requests for one member: the second waits while the first is inside. -/
theorem roleSync_serialized_two :
    ∃ s : Requests {"7"} ℕ,
      (roleSyncTasks intLists 1 {"7"}).Reachable smallGuild s ∧
      s.phase 1 = .waiting ⟨unassignRequest "T2", rfl⟩ ∧ (s.phase 0).remaining.isSome ∧
      ∀ i x p, (s.phase i).remaining = some (x, p) → i = 0 := by
  have hdistinct : DistinctMembers {"7"} := by
    rintro id rfl id' rfl _ _ _
    rfl
  have hfirst : (roleSyncTasks intLists 1 {"7"}).Reachable smallGuild _ := .step
    (.start : Guarded.Reachable _ _ (.start smallGuild : Requests {"7"} ℕ))
    (.arrive (i := 0) (x := ⟨assignRequest 1 "T1", rfl⟩) rfl rfl)
  have hsecond := hfirst.step (.arrive (i := 1) (x := ⟨unassignRequest "T2", rfl⟩) rfl rfl)
  refine ⟨_, hsecond, rfl, rfl, fun i x p hi => ?_⟩
  refine (roleSync_serialized hdistinct hsecond).1 i 0 x ⟨assignRequest 1 "T1", rfl⟩ p
    (roleSync intLists 1 (assignRequest 1 "T1")) hi rfl ?_
  exact x.2

end MomBot.Sidecar
