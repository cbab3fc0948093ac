import MomBot.Roles.Spec

/-!
# The report of a role change

`RoleSyncResult` tells the caller which roles an `apply_day_role` gave and took
away.  `Faithful` compares it with the roles of the member before and after and
with the calls that Discord answered.  Assign and unassign are taken apart along
the cases of `Spec.lean`:

* without a call the member is untouched and the report is empty
  (`Faithful.skip`);
* an unassign makes one call, on the target (`Unassigned.faithful`);
* an assign adds the target, perhaps after a removal (`Addition.faithful`,
  `Exchanged.faithful`).  The removed role is held and the target is not, so
  they differ, also where two days share a role.
-/

namespace MomBot.Roles

open Cooperative

variable {w w' : World} {guildId discordId target : ℤ} {roles : List ℤ}
  {trace : List (Exchange RoleEffects)}

/-! ## The roles of a member -/

/-- The roles a member holds: none if the member is not cached. -/
def World.rolesOf (w : World) (discordId : ℤ) : Set ℤ :=
  {role | ∃ roles, w.guild.members discordId = some roles ∧ role ∈ roles}

theorem World.mem_rolesOf {role : ℤ} (hmember : w.guild.members discordId = some roles) :
    role ∈ w.rolesOf discordId ↔ role ∈ roles := by
  simp [World.rolesOf, hmember]

theorem World.rolesOf_giveRole (target : ℤ) (hmember : w.guild.members discordId = some roles) :
    (w.editRoles discordId (giveRole target)).rolesOf discordId =
      insert target (w.rolesOf discordId) := by
  ext role
  rw [World.mem_rolesOf (World.members_editRoles hmember _), Set.mem_insert_iff,
    World.mem_rolesOf hmember, mem_giveRole]

theorem World.rolesOf_takeRole (target : ℤ) (hmember : w.guild.members discordId = some roles) :
    (w.editRoles discordId (takeRole target)).rolesOf discordId =
      w.rolesOf discordId \ {target} := by
  ext role
  rw [World.mem_rolesOf (World.members_editRoles hmember _), Set.mem_sdiff, Set.mem_singleton_iff,
    World.mem_rolesOf hmember, mem_takeRole]

/-! One role given for another, as sets: what is new, and what is gone. -/

section Exchange

variable {before : Set ℤ} {given taken : ℤ}

theorem gained_of_exchange (hgiven : given ∉ before) :
    insert given (before \ {taken}) \ before = {given} := by
  rw [Set.insert_sdiff_of_notMem _ hgiven, Set.sdiff_eq_empty.mpr Set.sdiff_subset,
    insert_empty_eq]

theorem lost_of_exchange (hgiven : given ∉ before) (htaken : taken ∈ before) :
    before \ insert given (before \ {taken}) = {taken} := by
  have hne : taken ≠ given := fun heq => hgiven (heq ▸ htaken)
  ext role
  simp only [Set.mem_sdiff, Set.mem_insert_iff, Set.mem_singleton_iff]
  constructor
  · rintro ⟨hrole, hgone⟩
    by_contra hkept
    exact hgone (.inr ⟨hrole, hkept⟩)
  · rintro rfl
    exact ⟨htaken, by simp [hne]⟩

end Exchange

/-! ## Faithful reports -/

/-- The role that a request is about. -/
def World.targetRole (w : World) (guildId : ℤ) (dayNumber : Option ℤ) : Option ℤ :=
  dayNumber.bind ((w.dayMap guildId).lookup ·)

/-- The change of the target role that an action asks for. -/
def targetCall : Action → ℤ → ℤ → RoleCall
  | .assign => .addRoles
  | .unassign => .removeRoles

/-- The target's mutation was answered by `outcome`. -/
def TargetAnswered (w : World) (guildId discordId : ℤ) (action : Action) (dayNumber : Option ℤ)
    (trace : List (Exchange RoleEffects)) (outcome : Outcome) : Prop :=
  ∃ target, w.targetRole guildId dayNumber = some target ∧
    ⟨targetCall action discordId target, outcome⟩ ∈ trace

/-- Discord has given the role of the day. -/
def TargetAdded (w : World) (guildId discordId : ℤ) (dayNumber : Option ℤ)
    (trace : List (Exchange RoleEffects)) : Prop :=
  ∃ target, w.targetRole guildId dayNumber = some target ∧
    ⟨.addRoles discordId target, .ok ()⟩ ∈ trace

/-- The removal of another day's role was answered by `Forbidden`. -/
def OtherDayRefused (w : World) (guildId discordId : ℤ) (dayNumber : Option ℤ)
    (trace : List (Exchange RoleEffects)) : Prop :=
  ∃ otherDay otherDayRoleId, some otherDay ≠ dayNumber ∧
    (otherDay, otherDayRoleId) ∈ w.dayMap guildId ∧
    ⟨.removeRoles discordId otherDayRoleId, .error .forbidden⟩ ∈ trace

/-- A report says what happened to the member's roles and to the calls. -/
structure Faithful (w : World) (guildId discordId : ℤ) (action : Action) (dayNumber : Option ℤ)
    (trace : List (Exchange RoleEffects)) (result : RoleSyncResult) (w' : World) : Prop where
  added : {role | role ∈ result.added} = w'.rolesOf discordId \ w.rolesOf discordId
  removed : {role | role ∈ result.removed} = w.rolesOf discordId \ w'.rolesOf discordId
  addedOnce : result.added.Nodup
  removedOnce : result.removed.Nodup
  skipped : result.status = .skipped → trace = []
  applied : result.status = .applied ↔
    TargetAnswered w guildId discordId action dayNumber trace (.ok ()) ∧
      ∀ exchange ∈ trace, exchange.2 = .ok ()
  partially : result.status = .partially ↔
    TargetAdded w guildId discordId dayNumber trace ∧
      OtherDayRefused w guildId discordId dayNumber trace
  failed : result.status = .failed ↔
    TargetAnswered w guildId discordId action dayNumber trace (.error .forbidden)

/-- Nothing was asked of Discord, and the report says so. -/
theorem Faithful.skip (w : World) (guildId discordId : ℤ) (action : Action)
    (dayNumber : Option ℤ) (reason : String) :
    Faithful w guildId discordId action dayNumber [] (.skip reason) w where
  added := by simp [RoleSyncResult.skip]
  removed := by simp [RoleSyncResult.skip]
  addedOnce := List.nodup_nil
  removedOnce := List.nodup_nil
  skipped := fun _ => rfl
  applied := by simp [RoleSyncResult.skip, TargetAnswered]
  partially := by simp [RoleSyncResult.skip, TargetAdded]
  failed := by simp [RoleSyncResult.skip, TargetAnswered]

/-! ## Unassign -/

theorem Unassigned.faithful {dayNumber : Option ℤ} {result : RoleSyncResult}
    (h : Unassigned w discordId dayNumber (w.dayMap guildId) trace (.ok result) w') :
    Faithful w guildId discordId .unassign dayNumber trace result w' := by
  cases h with
  | notSeeded => exact .skip ..
  | notInGuild => exact .skip ..
  | alreadyLacks => exact .skip ..
  | refused htarget _ _ _ =>
      constructor <;>
        simp [TargetAnswered, TargetAdded, World.targetRole, htarget, targetCall]
  | @removed target roles htarget _ hmember hhas =>
      have hheld : target ∈ w.rolesOf discordId := (World.mem_rolesOf hmember).mpr hhas
      have hafter := World.rolesOf_takeRole target hmember
      constructor
      case added =>
        simp [hafter, Set.sdiff_eq_empty.mpr (Set.sdiff_subset (s := w.rolesOf discordId))]
      case removed =>
        rw [hafter, Set.sdiff_sdiff_cancel_left (Set.singleton_subset_iff.mpr hheld)]
        simp
      all_goals simp [TargetAnswered, TargetAdded, World.targetRole, htarget, targetCall]

/-! ## Assign -/

variable {day other : ℤ} {result : RoleSyncResult}

theorem otherDayRole_day {dayMap : List (ℤ × ℤ)}
    (h : otherDayRole dayMap day roles = some other) :
    ∃ otherDay, some otherDay ≠ some day ∧ (otherDay, other) ∈ dayMap := by
  obtain ⟨⟨d, r⟩, hfind, rfl⟩ := Option.map_eq_some_iff.mp h
  have hp := List.find?_some hfind
  simp only [decide_eq_true_eq] at hp
  exact ⟨d, by simpa using hp.1, List.mem_of_find?_eq_some hfind⟩

/-- No other day's role had to go. -/
theorem Addition.faithful (h : Addition w discordId target [] false trace (.ok result) w')
    (htarget : (w.dayMap guildId).lookup day = some target)
    (hmember : w.guild.members discordId = some roles) (hlacks : target ∉ roles) :
    Faithful w guildId discordId .assign (some day) trace result w' := by
  have hnot : target ∉ w.rolesOf discordId := mt (World.mem_rolesOf hmember).mp hlacks
  generalize hvalue : (Except.ok result : Except PyError RoleSyncResult) = value at h
  cases h with
  | refused =>
      obtain rfl := Except.ok.inj hvalue
      constructor <;>
        simp [TargetAnswered, TargetAdded, World.targetRole, htarget, targetCall]
  | raised => exact absurd hvalue (by simp)
  | added =>
      obtain rfl := Except.ok.inj hvalue
      have hafter := World.rolesOf_giveRole target hmember
      constructor
      case added =>
        rw [hafter, Set.insert_sdiff_of_notMem _ hnot]
        simp
      case removed =>
        rw [hafter]
        simp [Set.sdiff_eq_empty.mpr (Set.subset_insert target (w.rolesOf discordId))]
      all_goals
        simp [TargetAnswered, TargetAdded, OtherDayRefused, World.targetRole, htarget, targetCall]

/-- The other day's role stayed, as Discord refused to take it away. -/
theorem Addition.faithful_refused
    (h : Addition w discordId target [] true trace (.ok result) w')
    (htarget : (w.dayMap guildId).lookup day = some target)
    (hmember : w.guild.members discordId = some roles) (hlacks : target ∉ roles)
    (hother : otherDayRole (w.dayMap guildId) day roles = some other) :
    Faithful w guildId discordId .assign (some day)
      ([⟨.removeRoles discordId other, .error .forbidden⟩] ++ trace) result w' := by
  have hnot : target ∉ w.rolesOf discordId := mt (World.mem_rolesOf hmember).mp hlacks
  generalize hvalue : (Except.ok result : Except PyError RoleSyncResult) = value at h
  cases h with
  | raised => exact absurd hvalue (by simp)
  | refused =>
      obtain rfl := Except.ok.inj hvalue
      constructor <;>
        simp [TargetAnswered, TargetAdded, World.targetRole, htarget, targetCall]
  | added =>
      obtain rfl := Except.ok.inj hvalue
      have hafter := World.rolesOf_giveRole target hmember
      constructor
      case added => simp [hafter, Set.insert_sdiff_of_notMem _ hnot]
      case removed =>
        simp [hafter, Set.sdiff_eq_empty.mpr (Set.subset_insert target (w.rolesOf discordId))]
      case partially =>
        obtain ⟨otherDay, hday, hentry⟩ := otherDayRole_day hother
        have hrefused : OtherDayRefused w guildId discordId (some day)
            [⟨.removeRoles discordId other, .error .forbidden⟩,
              ⟨.addRoles discordId target, .ok ()⟩] :=
          ⟨otherDay, other, hday, hentry, by simp⟩
        simp [TargetAdded, World.targetRole, htarget, hrefused]
      all_goals simp [TargetAnswered, World.targetRole, htarget, targetCall]

/-- The other day's role went, so a refused addition leaves the member with neither. -/
theorem Addition.faithful_removed
    (h : Addition (w.editRoles discordId (takeRole other)) discordId target [other] false
      trace (.ok result) w')
    (htarget : (w.dayMap guildId).lookup day = some target)
    (hmember : w.guild.members discordId = some roles) (hlacks : target ∉ roles)
    (hother : otherDayRole (w.dayMap guildId) day roles = some other) :
    Faithful w guildId discordId .assign (some day)
      ([⟨.removeRoles discordId other, .ok ()⟩] ++ trace) result w' := by
  have hnot : target ∉ w.rolesOf discordId := mt (World.mem_rolesOf hmember).mp hlacks
  have hheld : other ∈ w.rolesOf discordId :=
    (World.mem_rolesOf hmember).mpr (otherDayRole_some hother).1
  have htaken := World.rolesOf_takeRole other hmember
  generalize hvalue : (Except.ok result : Except PyError RoleSyncResult) = value at h
  cases h with
  | raised => exact absurd hvalue (by simp)
  | refused =>
      obtain rfl := Except.ok.inj hvalue
      constructor
      case added =>
        simp [htaken, Set.sdiff_eq_empty.mpr (Set.sdiff_subset (s := w.rolesOf discordId))]
      case removed =>
        rw [htaken, Set.sdiff_sdiff_cancel_left (Set.singleton_subset_iff.mpr hheld)]
        simp
      all_goals simp [TargetAnswered, TargetAdded, World.targetRole, htarget, targetCall]
  | added =>
      obtain rfl := Except.ok.inj hvalue
      have hboth := World.rolesOf_giveRole target
        (World.members_editRoles hmember (takeRole other))
      constructor
      case added => simp [hboth, htaken, gained_of_exchange hnot]
      case removed => simp [hboth, htaken, lost_of_exchange hnot hheld]
      all_goals
        simp [TargetAnswered, TargetAdded, OtherDayRefused, World.targetRole, htarget, targetCall]

/-- The other day's role went first, or stayed. -/
theorem Exchanged.faithful (h : Exchanged w discordId other target trace (.ok result) w')
    (htarget : (w.dayMap guildId).lookup day = some target)
    (hmember : w.guild.members discordId = some roles) (hlacks : target ∉ roles)
    (hother : otherDayRole (w.dayMap guildId) day roles = some other)
    (hforced : w.forcePartial ≠ some (toString discordId)) :
    Faithful w guildId discordId .assign (some day) trace result w' := by
  generalize hvalue : (Except.ok result : Except PyError RoleSyncResult) = value at h
  cases h with
  | removalRaised => exact absurd hvalue (by simp)
  | added hremoval haddition =>
      subst hvalue
      cases hremoval with
      | forced hforced' => exact absurd hforced' hforced
      | refused => exact haddition.faithful_refused htarget hmember hlacks hother
      | removed => exact haddition.faithful_removed htarget hmember hlacks hother

theorem Assigned.faithful
    (h : Assigned w discordId day (w.dayMap guildId) trace (.ok result) w')
    (hforced : w.forcePartial ≠ some (toString discordId)) :
    Faithful w guildId discordId .assign (some day) trace result w' := by
  cases h with
  | notSeeded => exact .skip ..
  | notInGuild => exact .skip ..
  | alreadyHas => exact .skip ..
  | noOther htarget _ hmember hlacks _ haddition =>
      exact haddition.faithful htarget hmember hlacks
  | other htarget _ hmember hlacks hother hexchanged =>
      exact hexchanged.faithful htarget hmember hlacks hother hforced

/-- **The report is faithful.**  Whatever Discord answers to each call, a result
that `apply_day_role` returns lists the roles that the member gained and lost,
and its status says how the calls went. -/
theorem applyDayRole_faithful {action : Action} {dayNumber : Option ℤ}
    (hforced : w.forcePartial = none)
    (h : (applyDayRole guildId discordId action dayNumber).Runs roleMachine w trace (.ok result)
      w') :
    Faithful w guildId discordId action dayNumber trace result w' := by
  cases action with
  | unassign => exact (runs_applyDayRole_unassign h).faithful
  | assign =>
      cases dayNumber with
      | none => exact absurd h.2.1 (by simp)
      | some day => exact (runs_applyDayRole_assign h).faithful (by simp [hforced])

/-! ## A guild with three days -/

/-- Guild 1 with three seeded days, and member 7 who holds the given roles. -/
def threeDayGuild (held : List ℤ) : World where
  states := fun _ => none
  dayRoleMap := { rows := [⟨1, 1, 101⟩, ⟨1, 2, 102⟩, ⟨1, 3, 103⟩], primaryKey := by decide }
  guild :=
    { roles := [101, 102, 103, 900], members := fun id => if id = 7 then some held else none }
  forcePartial := none

/-- Day 1 to day 2, where Discord refuses to take the role of day 1. -/
theorem applyDayRole_partial :
    (applyDayRole 1 7 .assign (some 2)).Runs roleMachine (threeDayGuild [101, 900])
      [⟨.removeRoles 7 101, .error .forbidden⟩, ⟨.addRoles 7 102, .ok ()⟩]
      (.ok ⟨.partially, [102], [], some REASON_REMOVE_OTHER_DAY_FAILED_403⟩)
      ((threeDayGuild [101, 900]).editRoles 7 (giveRole 102)) :=
  ⟨.error .forbidden, _, rfl, .ok (), [], rfl, rfl, rfl, rfl⟩

theorem applyDayRole_faithful_partial :
    ∃ w', Faithful (threeDayGuild [101, 900]) 1 7 .assign (some 2)
      [⟨.removeRoles 7 101, .error .forbidden⟩, ⟨.addRoles 7 102, .ok ()⟩]
      ⟨.partially, [102], [], some REASON_REMOVE_OTHER_DAY_FAILED_403⟩ w' :=
  ⟨_, applyDayRole_faithful rfl applyDayRole_partial⟩

end MomBot.Roles
