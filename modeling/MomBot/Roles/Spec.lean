import Mathlib.Data.List.Nodup
import Mathlib.Data.Set.Subsingleton
import Mathlib.Order.BooleanAlgebra.Set
import MomBot.Roles.Service

/-!
# What a run of the role service does

Every run of `applyDayRole` is one of a short list of cases, whatever the
environment answers.  The role service is cut where the source awaits:

* `Removal`: the other day's role is taken away, or a 403 keeps it;
* `Addition`: the target role is added, refused, or the call raises;
* `Assigned` and `Unassigned`: the whole of `_handle_assign` and of
  `_handle_unassign`, with the early answers.

`runs_handleAssign` and `runs_handleUnassign` are the inversion lemmas.  All
later results use the cases and never unfold the service.
-/

namespace MomBot.Roles

open Cooperative

/-! ## The world around the service -/

/-- `_load_day_role_map`: the days of a guild with their roles. -/
def DayRoleTable.dayMap (t : DayRoleTable) (guildId : ℤ) : List (ℤ × ℤ) :=
  dayMapOf (t.rows.filter fun row => row.guildId = guildId)

/-- The days of a guild with their roles, as the service loads them. -/
def World.dayMap (w : World) (guildId : ℤ) : List (ℤ × ℤ) :=
  w.dayRoleMap.dayMap guildId

/-- The day roles of a guild that a member holds. -/
def World.heldDayRoles (w : World) (guildId discordId : ℤ) : Set ℤ :=
  {role | role ∈ (w.dayMap guildId).map Prod.snd ∧
    ∃ roles, w.guild.members discordId = some roles ∧ role ∈ roles}

/-- Nothing but roles of cached members differs. -/
structure World.SameTables (w w' : World) : Prop where
  states : w'.states = w.states
  dayRoleMap : w'.dayRoleMap = w.dayRoleMap
  roles : w'.guild.roles = w.guild.roles
  forcePartial : w'.forcePartial = w.forcePartial
  members : ∀ id, (w'.guild.members id).isSome = (w.guild.members id).isSome

theorem World.SameTables.refl (w : World) : w.SameTables w :=
  ⟨rfl, rfl, rfl, rfl, fun _ => rfl⟩

theorem World.SameTables.trans {w₁ w₂ w₃ : World} (h₁ : w₁.SameTables w₂) (h₂ : w₂.SameTables w₃) :
    w₁.SameTables w₃ :=
  ⟨h₂.states.trans h₁.states, h₂.dayRoleMap.trans h₁.dayRoleMap, h₂.roles.trans h₁.roles,
    h₂.forcePartial.trans h₁.forcePartial, fun id => (h₂.members id).trans (h₁.members id)⟩

theorem World.SameTables.dayMap {w w' : World} (h : w.SameTables w') (guildId : ℤ) :
    w'.dayMap guildId = w.dayMap guildId := by
  rw [World.dayMap, h.dayRoleMap, World.dayMap]

theorem World.SameTables.present {w w' : World} (h : w.SameTables w') {discordId : ℤ}
    (hpresent : ∃ roles, w.guild.members discordId = some roles) :
    ∃ roles, w'.guild.members discordId = some roles := by
  rw [← Option.isSome_iff_exists] at hpresent ⊢
  rw [h.members, hpresent]

theorem World.sameTables_editRoles (w : World) (discordId : ℤ) (edit : List ℤ → List ℤ) :
    w.SameTables (w.editRoles discordId edit) := by
  refine ⟨rfl, rfl, rfl, rfl, fun id => ?_⟩
  by_cases hid : id = discordId
  · subst hid
    simp [World.editRoles]
  · simp [World.editRoles, hid]

theorem World.members_editRoles {w : World} {discordId : ℤ} {roles : List ℤ}
    (h : w.guild.members discordId = some roles) (edit : List ℤ → List ℤ) :
    (w.editRoles discordId edit).guild.members discordId = some (edit roles) := by
  simp [World.editRoles, h]

theorem mem_giveRole {role roleId : ℤ} {roles : List ℤ} :
    role ∈ giveRole roleId roles ↔ role = roleId ∨ role ∈ roles := by
  unfold giveRole
  split
  · constructor
    · exact .inr
    · rintro (rfl | h) <;> assumption
  · simp [or_comm]

theorem mem_takeRole {role roleId : ℤ} {roles : List ℤ} :
    role ∈ takeRole roleId roles ↔ role ∈ roles ∧ role ≠ roleId := by
  simp [takeRole]

/-! ## The days of a guild -/

theorem mem_of_lookup {dayMap : List (ℤ × ℤ)} {day role : ℤ} (h : dayMap.lookup day = some role) :
    (day, role) ∈ dayMap := by
  induction dayMap with
  | nil => simp at h
  | cons entry rest ih =>
      rw [List.lookup_cons] at h
      split at h
      · next heq =>
          have hday : day = entry.1 := by simpa using heq
          obtain rfl : entry.2 = role := by simpa using h
          simp [hday]
      · exact List.mem_cons_of_mem _ (ih h)

theorem lookup_of_mem {dayMap : List (ℤ × ℤ)} (hkey : (dayMap.map Prod.fst).Nodup) {day role : ℤ}
    (h : (day, role) ∈ dayMap) : dayMap.lookup day = some role := by
  induction dayMap with
  | nil => simp at h
  | cons entry rest ih =>
      obtain ⟨hfresh, hrest⟩ := List.nodup_cons.mp hkey
      rcases List.mem_cons.mp h with rfl | hmem
      · simp
      · have hne : day ≠ entry.1 := by
          rintro rfl
          exact hfresh (List.mem_map.mpr ⟨_, hmem, rfl⟩)
        rw [List.lookup_cons, beq_false_of_ne hne]
        exact ih hrest hmem

/-- The primary key makes the loaded map a function of the day. -/
theorem World.dayMap_nodup (w : World) (guildId : ℤ) : ((w.dayMap guildId).map Prod.fst).Nodup := by
  have hkey := w.dayRoleMap.primaryKey.sublist
    ((List.filter_sublist (p := fun row => row.guildId = guildId)).map _)
  rw [World.dayMap, DayRoleTable.dayMap, dayMapOf, List.map_map]
  refine List.Nodup.map_on (fun row hrow row' hrow' heq => ?_) hkey.of_map
  have hguild : row.guildId = row'.guildId := by
    have h := (List.mem_filter.mp hrow).2
    have h' := (List.mem_filter.mp hrow').2
    simp only [decide_eq_true_eq] at h h'
    rw [h, h']
  exact List.inj_on_of_nodup_map hkey hrow hrow' (Prod.ext hguild heq)

theorem otherDayRole_some {dayMap : List (ℤ × ℤ)} {day other : ℤ} {roles : List ℤ}
    (h : otherDayRole dayMap day roles = some other) :
    other ∈ roles ∧ other ∈ dayMap.map Prod.snd := by
  obtain ⟨entry, hfind, rfl⟩ := Option.map_eq_some_iff.mp h
  have hp := List.find?_some hfind
  simp only [decide_eq_true_eq] at hp
  exact ⟨hp.2, List.mem_map_of_mem (List.mem_of_find?_eq_some hfind)⟩

/-- No other day's role is found: the member holds at most the target's. -/
theorem otherDayRole_none {dayMap : List (ℤ × ℤ)} {day : ℤ} {roles : List ℤ}
    (h : otherDayRole dayMap day roles = none) {role : ℤ} (hrole : role ∈ roles)
    (hmem : role ∈ dayMap.map Prod.snd) : (day, role) ∈ dayMap := by
  obtain ⟨⟨d, r⟩, hentry, rfl⟩ := List.mem_map.mp hmem
  have hnot := List.find?_eq_none.mp (Option.map_eq_none_iff.mp h) _ hentry
  by_cases hd : d = day
  · exact hd ▸ hentry
  · exact absurd (decide_eq_true ⟨hd, hrole⟩) hnot

/-! ## The cases of the service -/

variable {w w' : World} {discordId : ℤ} {trace : List (Exchange RoleEffects)}

/-- How the removal of the other day's role ends, when it does not raise: the
removed ids, whether a 403 came, and the world after. -/
inductive Removal (w : World) (discordId otherDayRoleId : ℤ) :
    List (Exchange RoleEffects) → List ℤ → Bool → World → Prop
  | forced : w.forcePartial = some (toString discordId) →
      Removal w discordId otherDayRoleId [] [] true w
  | refused : w.forcePartial ≠ some (toString discordId) →
      Removal w discordId otherDayRoleId
        [⟨.removeRoles discordId otherDayRoleId, .error .forbidden⟩] [] true w
  | removed : w.forcePartial ≠ some (toString discordId) →
      Removal w discordId otherDayRoleId [⟨.removeRoles discordId otherDayRoleId, .ok ()⟩]
        [otherDayRoleId] false (w.editRoles discordId (takeRole otherDayRoleId))

/-- How the addition of the target role ends. -/
inductive Addition (w : World) (discordId targetRoleId : ℤ) (removedIds : List ℤ)
    (removeFailed403 : Bool) :
    List (Exchange RoleEffects) → Except PyError RoleSyncResult → World → Prop
  | refused : Addition w discordId targetRoleId removedIds removeFailed403
      [⟨.addRoles discordId targetRoleId, .error .forbidden⟩]
      (.ok ⟨.failed, [], removedIds, none⟩) w
  | raised (error : Raised) : error ≠ .forbidden →
      Addition w discordId targetRoleId removedIds removeFailed403
        [⟨.addRoles discordId targetRoleId, .error error⟩] (.error (.discord error)) w
  | added : Addition w discordId targetRoleId removedIds removeFailed403
      [⟨.addRoles discordId targetRoleId, .ok ()⟩]
      (.ok (if removeFailed403 then
          ⟨.partially, [targetRoleId], [], some REASON_REMOVE_OTHER_DAY_FAILED_403⟩
        else ⟨.applied, [targetRoleId], removedIds, none⟩))
      (w.editRoles discordId (giveRole targetRoleId))

theorem runs_addTargetRole {targetRoleId : ℤ} {removedIds : List ℤ} {removeFailed403 : Bool}
    {value : Except PyError RoleSyncResult}
    (h : (addTargetRole discordId targetRoleId removedIds removeFailed403).Runs roleMachine w
      trace value w') :
    Addition w discordId targetRoleId removedIds removeFailed403 trace value w' := by
  obtain ⟨outcome, rest, rfl, hrest⟩ := runs_addRoles.mp h
  cases outcome with
  | error error =>
      by_cases herror : error = .forbidden
      · subst herror
        obtain ⟨rfl, rfl, rfl⟩ := hrest
        exact .refused
      · have hraise : (Coroutine.done (.error (.discord error)) : RoleM _).Runs roleMachine w
            rest value w' := by
          cases error <;> first | exact hrest | exact absurd rfl herror
        obtain ⟨rfl, rfl, rfl⟩ := hraise
        exact .raised error herror
  | ok =>
      cases removeFailed403 with
      | true =>
          obtain ⟨rfl, rfl, rfl⟩ := hrest
          exact .added
      | false =>
          obtain ⟨rfl, rfl, rfl⟩ := hrest
          exact .added

/-- The removal and the addition together. -/
inductive Exchanged (w : World) (discordId otherDayRoleId targetRoleId : ℤ) :
    List (Exchange RoleEffects) → Except PyError RoleSyncResult → World → Prop
  | removalRaised (error : Raised) : error ≠ .forbidden →
      w.forcePartial ≠ some (toString discordId) →
      Exchanged w discordId otherDayRoleId targetRoleId
        [⟨.removeRoles discordId otherDayRoleId, .error error⟩] (.error (.discord error)) w
  | added {first second : List (Exchange RoleEffects)} {removedIds : List ℤ}
      {removeFailed403 : Bool} {w₁ w' : World} {value : Except PyError RoleSyncResult} :
      Removal w discordId otherDayRoleId first removedIds removeFailed403 w₁ →
      Addition w₁ discordId targetRoleId removedIds removeFailed403 second value w' →
      Exchanged w discordId otherDayRoleId targetRoleId (first ++ second) value w'

theorem runs_removeOtherDayRole {otherDayRoleId targetRoleId : ℤ}
    {value : Except PyError RoleSyncResult}
    (h : (removeOtherDayRole discordId otherDayRoleId targetRoleId).Runs roleMachine w trace
      value w') :
    Exchanged w discordId otherDayRoleId targetRoleId trace value w' := by
  rw [removeOtherDayRole, runs_environForcePartial] at h
  split at h
  · next hforced =>
      rw [← List.nil_append trace]
      exact .added (.forced hforced) (runs_addTargetRole h)
  · next hforced =>
      obtain ⟨outcome, rest, rfl, hrest⟩ := runs_removeRoles.mp h
      cases outcome with
      | ok => exact .added (.removed hforced) (runs_addTargetRole hrest)
      | error error =>
          by_cases herror : error = .forbidden
          · subst herror
            exact .added (.refused hforced) (runs_addTargetRole hrest)
          · have hraise : (Coroutine.done (.error (.discord error)) : RoleM _).Runs roleMachine w
                rest value w' := by
              cases error <;> first | exact hrest | exact absurd rfl herror
            obtain ⟨rfl, rfl, rfl⟩ := hraise
            exact .removalRaised error herror hforced

/-- The runs of `_handle_assign`. -/
inductive Assigned (w : World) (discordId dayNumber : ℤ) (dayMap : List (ℤ × ℤ)) :
    List (Exchange RoleEffects) → Except PyError RoleSyncResult → World → Prop
  | notSeeded : (∀ target, dayMap.lookup dayNumber = some target → target ∉ w.guild.roles) →
      Assigned w discordId dayNumber dayMap [] (.ok (.skip REASON_ROLE_NOT_SEEDED)) w
  | notInGuild {target : ℤ} : dayMap.lookup dayNumber = some target → target ∈ w.guild.roles →
      w.guild.members discordId = none →
      Assigned w discordId dayNumber dayMap [] (.ok (.skip REASON_MEMBER_NOT_IN_GUILD)) w
  | alreadyHas {target : ℤ} {roles : List ℤ} : dayMap.lookup dayNumber = some target →
      target ∈ w.guild.roles → w.guild.members discordId = some roles → target ∈ roles →
      Assigned w discordId dayNumber dayMap [] (.ok (.skip REASON_ALREADY_HAS_ROLE)) w
  | noOther {target : ℤ} {roles : List ℤ} {trace : List (Exchange RoleEffects)}
      {value : Except PyError RoleSyncResult} {w' : World} :
      dayMap.lookup dayNumber = some target → target ∈ w.guild.roles →
      w.guild.members discordId = some roles → target ∉ roles →
      otherDayRole dayMap dayNumber roles = none →
      Addition w discordId target [] false trace value w' →
      Assigned w discordId dayNumber dayMap trace value w'
  | other {target other : ℤ} {roles : List ℤ} {trace : List (Exchange RoleEffects)}
      {value : Except PyError RoleSyncResult} {w' : World} :
      dayMap.lookup dayNumber = some target → target ∈ w.guild.roles →
      w.guild.members discordId = some roles → target ∉ roles →
      otherDayRole dayMap dayNumber roles = some other →
      Exchanged w discordId other target trace value w' →
      Assigned w discordId dayNumber dayMap trace value w'

theorem runs_handleAssign {dayNumber : ℤ} {dayMap : List (ℤ × ℤ)}
    {value : Except PyError RoleSyncResult}
    (h : (handleAssign discordId dayNumber dayMap).Runs roleMachine w trace value w') :
    Assigned w discordId dayNumber dayMap trace value w' := by
  unfold handleAssign at h
  cases htarget : dayMap.lookup dayNumber with
  | none =>
      rw [htarget] at h
      obtain ⟨rfl, rfl, rfl⟩ := h
      exact .notSeeded (by simp [htarget])
  | some target =>
      simp only [htarget, runs_getRole, decide_eq_true_eq] at h
      by_cases hlive : target ∈ w.guild.roles
      · rw [if_pos hlive, runs_getMember] at h
        cases hmember : w.guild.members discordId with
        | none =>
            simp only [hmember] at h
            obtain ⟨rfl, rfl, rfl⟩ := h
            exact .notInGuild htarget hlive hmember
        | some roles =>
            simp only [hmember] at h
            split at h
            · next hhas =>
                obtain ⟨rfl, rfl, rfl⟩ := h
                exact .alreadyHas htarget hlive hmember hhas
            · next hlacks =>
                split at h
                · next hother =>
                    exact .noOther htarget hlive hmember hlacks hother (runs_addTargetRole h)
                · next other hother =>
                    exact .other htarget hlive hmember hlacks hother (runs_removeOtherDayRole h)
      · rw [if_neg hlive] at h
        obtain ⟨rfl, rfl, rfl⟩ := h
        exact .notSeeded fun t ht => by rwa [Option.some.inj (htarget.symm.trans ht)] at hlive

/-- The runs of `_handle_unassign`. -/
inductive Unassigned (w : World) (discordId : ℤ) (dayNumber : Option ℤ)
    (dayMap : List (ℤ × ℤ)) :
    List (Exchange RoleEffects) → Except PyError RoleSyncResult → World → Prop
  | notSeeded : (∀ target, dayNumber.bind (dayMap.lookup ·) = some target →
        target ∉ w.guild.roles) →
      Unassigned w discordId dayNumber dayMap [] (.ok (.skip REASON_ROLE_NOT_SEEDED)) w
  | notInGuild {target : ℤ} : dayNumber.bind (dayMap.lookup ·) = some target →
      target ∈ w.guild.roles → w.guild.members discordId = none →
      Unassigned w discordId dayNumber dayMap [] (.ok (.skip REASON_MEMBER_NOT_IN_GUILD)) w
  | alreadyLacks {target : ℤ} {roles : List ℤ} : dayNumber.bind (dayMap.lookup ·) = some target →
      target ∈ w.guild.roles → w.guild.members discordId = some roles → target ∉ roles →
      Unassigned w discordId dayNumber dayMap [] (.ok (.skip REASON_ALREADY_LACKS_ROLE)) w
  | refused {target : ℤ} {roles : List ℤ} : dayNumber.bind (dayMap.lookup ·) = some target →
      target ∈ w.guild.roles → w.guild.members discordId = some roles → target ∈ roles →
      Unassigned w discordId dayNumber dayMap [⟨.removeRoles discordId target, .error .forbidden⟩]
        (.ok ⟨.failed, [], [], none⟩) w
  | raised {target : ℤ} {roles : List ℤ} (error : Raised) :
      dayNumber.bind (dayMap.lookup ·) = some target →
      target ∈ w.guild.roles → w.guild.members discordId = some roles → target ∈ roles →
      error ≠ .forbidden →
      Unassigned w discordId dayNumber dayMap [⟨.removeRoles discordId target, .error error⟩]
        (.error (.discord error)) w
  | removed {target : ℤ} {roles : List ℤ} : dayNumber.bind (dayMap.lookup ·) = some target →
      target ∈ w.guild.roles → w.guild.members discordId = some roles → target ∈ roles →
      Unassigned w discordId dayNumber dayMap [⟨.removeRoles discordId target, .ok ()⟩]
        (.ok ⟨.applied, [], [target], none⟩) (w.editRoles discordId (takeRole target))

theorem runs_handleUnassign {dayNumber : Option ℤ} {dayMap : List (ℤ × ℤ)}
    {value : Except PyError RoleSyncResult}
    (h : (handleUnassign discordId dayNumber dayMap).Runs roleMachine w trace value w') :
    Unassigned w discordId dayNumber dayMap trace value w' := by
  unfold handleUnassign at h
  cases htarget : dayNumber.bind (dayMap.lookup ·) with
  | none =>
      simp only [htarget] at h
      obtain ⟨rfl, rfl, rfl⟩ := h
      exact .notSeeded (by simp [htarget])
  | some target =>
      simp only [htarget, runs_getRole, decide_eq_true_eq] at h
      by_cases hlive : target ∈ w.guild.roles
      · rw [if_pos hlive, runs_getMember] at h
        cases hmember : w.guild.members discordId with
        | none =>
            simp only [hmember] at h
            obtain ⟨rfl, rfl, rfl⟩ := h
            exact .notInGuild htarget hlive hmember
        | some roles =>
            simp only [hmember] at h
            split at h
            · next hlacks =>
                obtain ⟨rfl, rfl, rfl⟩ := h
                exact .alreadyLacks htarget hlive hmember hlacks
            · next hhas =>
                have hhas := not_not.mp hhas
                obtain ⟨outcome, rest, rfl, hrest⟩ := runs_removeRoles.mp h
                cases outcome with
                | ok =>
                    obtain ⟨rfl, rfl, rfl⟩ := hrest
                    exact .removed htarget hlive hmember hhas
                | error error =>
                    by_cases herror : error = .forbidden
                    · subst herror
                      obtain ⟨rfl, rfl, rfl⟩ := hrest
                      exact .refused htarget hlive hmember hhas
                    · have hraise : (Coroutine.done (.error (.discord error)) : RoleM _).Runs
                          roleMachine w rest value w' := by
                        cases error <;> first | exact hrest | exact absurd rfl herror
                      obtain ⟨rfl, rfl, rfl⟩ := hraise
                      exact .raised error htarget hlive hmember hhas herror
      · rw [if_neg hlive] at h
        obtain ⟨rfl, rfl, rfl⟩ := h
        exact .notSeeded fun t ht => by rwa [Option.some.inj (htarget.symm.trans ht)] at hlive

/-! ## The service as a whole -/

theorem Removal.sameTables {other : ℤ} {removedIds : List ℤ} {removeFailed403 : Bool}
    (h : Removal w discordId other trace removedIds removeFailed403 w') : w.SameTables w' := by
  cases h with
  | forced => exact .refl w
  | refused => exact .refl w
  | removed => exact w.sameTables_editRoles _ _

theorem Addition.sameTables {target : ℤ} {removedIds : List ℤ} {removeFailed403 : Bool}
    {value : Except PyError RoleSyncResult}
    (h : Addition w discordId target removedIds removeFailed403 trace value w') :
    w.SameTables w' := by
  cases h with
  | refused => exact .refl w
  | raised => exact .refl w
  | added => exact w.sameTables_editRoles _ _

theorem Exchanged.sameTables {other target : ℤ} {value : Except PyError RoleSyncResult}
    (h : Exchanged w discordId other target trace value w') : w.SameTables w' := by
  cases h with
  | removalRaised => exact .refl w
  | added hremoval haddition => exact hremoval.sameTables.trans haddition.sameTables

theorem Assigned.sameTables {dayNumber : ℤ} {dayMap : List (ℤ × ℤ)}
    {value : Except PyError RoleSyncResult}
    (h : Assigned w discordId dayNumber dayMap trace value w') : w.SameTables w' := by
  cases h with
  | notSeeded => exact .refl w
  | notInGuild => exact .refl w
  | alreadyHas => exact .refl w
  | noOther _ _ _ _ _ haddition => exact haddition.sameTables
  | other _ _ _ _ _ hexchanged => exact hexchanged.sameTables

theorem Unassigned.sameTables {dayNumber : Option ℤ} {dayMap : List (ℤ × ℤ)}
    {value : Except PyError RoleSyncResult}
    (h : Unassigned w discordId dayNumber dayMap trace value w') : w.SameTables w' := by
  cases h with
  | removed => exact w.sameTables_editRoles _ _
  | notSeeded => exact .refl w
  | notInGuild => exact .refl w
  | alreadyLacks => exact .refl w
  | refused => exact .refl w
  | raised => exact .refl w

theorem runs_applyDayRole_assign {guildId dayNumber : ℤ} {value : Except PyError RoleSyncResult}
    (h : (applyDayRole guildId discordId .assign (some dayNumber)).Runs roleMachine w trace
      value w') :
    Assigned w discordId dayNumber (w.dayMap guildId) trace value w' :=
  runs_handleAssign (runs_selectDayRoleMap.mp h)

theorem runs_applyDayRole_unassign {guildId : ℤ} {dayNumber : Option ℤ}
    {value : Except PyError RoleSyncResult}
    (h : (applyDayRole guildId discordId .unassign dayNumber).Runs roleMachine w trace value w') :
    Unassigned w discordId dayNumber (w.dayMap guildId) trace value w' :=
  runs_handleUnassign (runs_selectDayRoleMap.mp h)

/-- The service writes no row: it only changes roles of cached members. -/
theorem runs_applyDayRole_sameTables {guildId : ℤ} {action : Action} {dayNumber : Option ℤ}
    {value : Except PyError RoleSyncResult}
    (h : (applyDayRole guildId discordId action dayNumber).Runs roleMachine w trace value w') :
    w.SameTables w' := by
  cases action with
  | unassign => exact (runs_applyDayRole_unassign h).sameTables
  | assign =>
      cases dayNumber with
      | none =>
          obtain ⟨-, -, rfl⟩ := h
          exact .refl _
      | some dayNumber => exact (runs_applyDayRole_assign h).sameTables

/-! ## What the service touches -/

/-- Reads of the day map and of the live roles are permitted, and everything
about one member. -/
structure ServicePermits (permits : RoleOp → Prop) (permitsCall : RoleCall → Prop)
    (discordId : ℤ) : Prop where
  selectDayRoleMap : ∀ guildId, permits (.selectDayRoleMap guildId)
  getRole : ∀ roleId, permits (.getRole roleId)
  getMember : permits (.getMember discordId)
  environForcePartial : permits .environForcePartial
  addRoles : ∀ roleId, permitsCall (.addRoles discordId roleId)
  removeRoles : ∀ roleId, permitsCall (.removeRoles discordId roleId)

section Uses

variable {permits : RoleOp → Prop} {permitsCall : RoleCall → Prop}

theorem uses_addTargetRole (h : ServicePermits permits permitsCall discordId) (targetRoleId : ℤ)
    (removedIds : List ℤ) (removeFailed403 : Bool) :
    (addTargetRole discordId targetRoleId removedIds removeFailed403).Uses permits permitsCall := by
  rw [addTargetRole, uses_addRoles]
  refine ⟨h.addRoles _, fun outcome => ?_⟩
  split
  · trivial
  · trivial
  · split <;> trivial

theorem uses_removeOtherDayRole (h : ServicePermits permits permitsCall discordId)
    (otherDayRoleId targetRoleId : ℤ) :
    (removeOtherDayRole discordId otherDayRoleId targetRoleId).Uses permits permitsCall := by
  rw [removeOtherDayRole, uses_environForcePartial]
  refine ⟨h.environForcePartial, fun forced => ?_⟩
  split
  · exact uses_addTargetRole h ..
  · rw [uses_removeRoles]
    refine ⟨h.removeRoles _, fun outcome => ?_⟩
    split
    · exact uses_addTargetRole h ..
    · trivial
    · exact uses_addTargetRole h ..

theorem uses_handleAssign (h : ServicePermits permits permitsCall discordId) (dayNumber : ℤ)
    (dayMap : List (ℤ × ℤ)) :
    (handleAssign discordId dayNumber dayMap).Uses permits permitsCall := by
  unfold handleAssign
  split
  · trivial
  · rw [uses_getRole]
    refine ⟨h.getRole _, fun live => ?_⟩
    split
    · rw [uses_getMember]
      refine ⟨h.getMember, fun member => ?_⟩
      split
      · trivial
      · split
        · trivial
        · split
          · exact uses_addTargetRole h ..
          · exact uses_removeOtherDayRole h ..
    · trivial

theorem uses_handleUnassign (h : ServicePermits permits permitsCall discordId)
    (dayNumber : Option ℤ) (dayMap : List (ℤ × ℤ)) :
    (handleUnassign discordId dayNumber dayMap).Uses permits permitsCall := by
  unfold handleUnassign
  split
  · trivial
  · rw [uses_getRole]
    refine ⟨h.getRole _, fun live => ?_⟩
    split
    · rw [uses_getMember]
      refine ⟨h.getMember, fun member => ?_⟩
      split
      · trivial
      · split
        · trivial
        · rw [uses_removeRoles]
          refine ⟨h.removeRoles _, fun outcome => ?_⟩
          split <;> trivial
    · trivial

theorem uses_applyDayRole (h : ServicePermits permits permitsCall discordId) (guildId : ℤ)
    (action : Action) (dayNumber : Option ℤ) :
    (applyDayRole guildId discordId action dayNumber).Uses permits permitsCall := by
  unfold applyDayRole
  split
  · trivial
  · rw [uses_selectDayRoleMap]
    exact ⟨h.selectDayRoleMap _, fun rows => uses_handleAssign h ..⟩
  · rw [uses_selectDayRoleMap]
    exact ⟨h.selectDayRoleMap _, fun rows => uses_handleUnassign h ..⟩

end Uses

/-! ## The day roles a member holds -/

variable {guildId target : ℤ} {roles : List ℤ}

theorem mem_heldDayRoles {role : ℤ} (hmember : w.guild.members discordId = some roles) :
    role ∈ w.heldDayRoles guildId discordId ↔
      role ∈ (w.dayMap guildId).map Prod.snd ∧ role ∈ roles := by
  simp [World.heldDayRoles, hmember]

theorem mem_dayRoles_of_lookup {day : ℤ} (h : (w.dayMap guildId).lookup day = some target) :
    target ∈ (w.dayMap guildId).map Prod.snd :=
  List.mem_map.mpr ⟨_, mem_of_lookup h, rfl⟩

theorem heldDayRoles_giveRole (hmember : w.guild.members discordId = some roles)
    (hmapped : target ∈ (w.dayMap guildId).map Prod.snd) :
    (w.editRoles discordId (giveRole target)).heldDayRoles guildId discordId =
      insert target (w.heldDayRoles guildId discordId) := by
  ext role
  rw [mem_heldDayRoles (World.members_editRoles hmember _), Set.mem_insert_iff,
    mem_heldDayRoles hmember, mem_giveRole, (w.sameTables_editRoles _ _).dayMap]
  constructor
  · rintro ⟨h, rfl | hrole⟩
    · exact .inl rfl
    · exact .inr ⟨h, hrole⟩
  · rintro (rfl | ⟨h, hrole⟩)
    · exact ⟨hmapped, .inl rfl⟩
    · exact ⟨h, .inr hrole⟩

theorem heldDayRoles_takeRole (hmember : w.guild.members discordId = some roles) :
    (w.editRoles discordId (takeRole target)).heldDayRoles guildId discordId =
      w.heldDayRoles guildId discordId \ {target} := by
  ext role
  rw [mem_heldDayRoles (World.members_editRoles hmember _), Set.mem_sdiff, Set.mem_singleton_iff,
    mem_heldDayRoles hmember, mem_takeRole, (w.sameTables_editRoles _ _).dayMap, and_assoc]

/-- The role of a day, as a set: none without a day, or for a day without a row. -/
def World.rolesOfDay (w : World) (guildId : ℤ) (day : Option ℤ) : Set ℤ :=
  {role | ∃ d, day = some d ∧ (w.dayMap guildId).lookup d = some role}

@[simp] theorem World.rolesOfDay_none (w : World) : w.rolesOfDay guildId none = ∅ := by
  simp [World.rolesOfDay]

theorem World.rolesOfDay_of_lookup {day : ℤ} (h : (w.dayMap guildId).lookup day = some target) :
    w.rolesOfDay guildId (some day) = {target} := by
  ext role
  simp [World.rolesOfDay, h, eq_comm]

theorem World.rolesOfDay_of_lookup_none {day : ℤ} (h : (w.dayMap guildId).lookup day = none) :
    w.rolesOfDay guildId (some day) = ∅ := by
  simp [World.rolesOfDay, h]

theorem World.rolesOfDay_of_bind {day : Option ℤ}
    (h : day.bind ((w.dayMap guildId).lookup ·) = some target) :
    w.rolesOfDay guildId day = {target} := by
  obtain ⟨d, rfl, hlookup⟩ := Option.bind_eq_some_iff.mp h
  exact World.rolesOfDay_of_lookup hlookup

theorem World.rolesOfDay_subsingleton (w : World) (day : Option ℤ) :
    (w.rolesOfDay guildId day).Subsingleton := by
  rintro a ⟨d, rfl, ha⟩ b ⟨d', hd, hb⟩
  obtain rfl := Option.some.inj hd
  exact Option.some.inj (ha.symm.trans hb)

theorem World.SameTables.rolesOfDay (h : w.SameTables w') (day : Option ℤ) :
    w'.rolesOfDay guildId day = w.rolesOfDay guildId day := by
  rw [World.rolesOfDay, h.dayMap, World.rolesOfDay]

/-- Without another day's role, an assign that finds its role missing finds no
day role at all. -/
theorem heldDayRoles_eq_empty_of_noOther {day : ℤ}
    (hmember : w.guild.members discordId = some roles)
    (htarget : (w.dayMap guildId).lookup day = some target) (hlacks : target ∉ roles)
    (hother : otherDayRole (w.dayMap guildId) day roles = none) :
    w.heldDayRoles guildId discordId = ∅ := by
  refine Set.eq_empty_of_forall_notMem fun role hrole => ?_
  obtain ⟨hmapped, hmem⟩ := (mem_heldDayRoles hmember).mp hrole
  have hsame := lookup_of_mem (w.dayMap_nodup guildId) (otherDayRole_none hother hmem hmapped)
  rw [htarget, Option.some.injEq] at hsame
  exact hlacks (hsame ▸ hmem)

/-- A member that lacks the one role it could hold holds none. -/
theorem heldDayRoles_eq_empty_of_lacks (hmember : w.guild.members discordId = some roles)
    (hlacks : target ∉ roles) (hsub : w.heldDayRoles guildId discordId ⊆ {target}) :
    w.heldDayRoles guildId discordId = ∅ := by
  refine Set.eq_empty_of_forall_notMem fun role hrole => ?_
  obtain rfl := Set.mem_singleton_iff.mp (hsub hrole)
  exact hlacks ((mem_heldDayRoles hmember).mp hrole).2

theorem mem_heldDayRoles_of_other {day other : ℤ}
    (hmember : w.guild.members discordId = some roles)
    (hother : otherDayRole (w.dayMap guildId) day roles = some other) :
    other ∈ w.heldDayRoles guildId discordId :=
  (mem_heldDayRoles hmember).mpr (otherDayRole_some hother).symm

/-! ## When every call returns -/

/-- The environment in which every Discord call returns. -/
def allReturn (_ : RoleCall) : Outcome :=
  .ok ()

variable {value : Except PyError RoleSyncResult}

/-- The addition adds its role or nothing. -/
theorem Addition.heldDayRoles_subset {removedIds : List ℤ} {removeFailed403 : Bool}
    (h : Addition w discordId target removedIds removeFailed403 trace value w')
    (hmember : w.guild.members discordId = some roles)
    (hmapped : target ∈ (w.dayMap guildId).map Prod.snd) :
    w'.heldDayRoles guildId discordId ⊆ insert target (w.heldDayRoles guildId discordId) := by
  cases h with
  | refused => exact Set.subset_insert _ _
  | raised => exact Set.subset_insert _ _
  | added => rw [heldDayRoles_giveRole hmember hmapped]

/-- An addition whose call returns adds its role. -/
theorem Addition.heldDayRoles {removedIds : List ℤ} {removeFailed403 : Bool}
    (h : Addition w discordId target removedIds removeFailed403 trace value w')
    (hok : ∀ exchange ∈ trace, exchange.2 = .ok ())
    (hmember : w.guild.members discordId = some roles)
    (hmapped : target ∈ (w.dayMap guildId).map Prod.snd) :
    (∃ result, value = .ok result) ∧
      w'.heldDayRoles guildId discordId = insert target (w.heldDayRoles guildId discordId) := by
  cases h with
  | refused => simp at hok
  | raised => simp at hok
  | added => exact ⟨⟨_, rfl⟩, heldDayRoles_giveRole hmember hmapped⟩

/-- The other day's role was the only one that was held, so nothing is left without it. -/
theorem heldDayRoles_takeRole_eq_empty {day other : ℤ}
    (hmember : w.guild.members discordId = some roles)
    (hother : otherDayRole (w.dayMap guildId) day roles = some other)
    (hone : (w.heldDayRoles guildId discordId).Subsingleton) :
    (w.editRoles discordId (takeRole other)).heldDayRoles guildId discordId = ∅ := by
  rw [heldDayRoles_takeRole hmember,
    hone.eq_singleton_of_mem (mem_heldDayRoles_of_other hmember hother), Set.sdiff_self]

/-- An assign leaves exactly its own role, if at most one day role was held. -/
theorem Assigned.held_of_ok {dayNumber : ℤ}
    (h : Assigned w discordId dayNumber (w.dayMap guildId) trace value w')
    (hok : ∀ exchange ∈ trace, exchange.2 = .ok ())
    (htarget : (w.dayMap guildId).lookup dayNumber = some target) (hlive : target ∈ w.guild.roles)
    (hpresent : ∃ roles, w.guild.members discordId = some roles)
    (hforced : w.forcePartial ≠ some (toString discordId))
    (hone : (w.heldDayRoles guildId discordId).Subsingleton) :
    (∃ result, value = .ok result) ∧ w'.heldDayRoles guildId discordId = {target} := by
  have hmapped := mem_dayRoles_of_lookup htarget
  cases h with
  | notSeeded hdead => exact absurd hlive (hdead target htarget)
  | notInGuild _ _ hmember => simp [hmember] at hpresent
  | alreadyHas htarget' _ hmember hhas =>
      obtain rfl := Option.some.inj (htarget.symm.trans htarget')
      have hheld : target ∈ w.heldDayRoles guildId discordId :=
        (mem_heldDayRoles hmember).mpr ⟨hmapped, hhas⟩
      exact ⟨⟨_, rfl⟩, hone.eq_singleton_of_mem hheld⟩
  | noOther htarget' _ hmember hlacks hother haddition =>
      obtain rfl := Option.some.inj (htarget.symm.trans htarget')
      obtain ⟨hresult, hheld⟩ := haddition.heldDayRoles hok hmember hmapped
      rw [heldDayRoles_eq_empty_of_noOther hmember htarget hlacks hother, insert_empty_eq] at hheld
      exact ⟨hresult, hheld⟩
  | @other target' other _ _ _ _ htarget' _ hmember hlacks hother hexchanged =>
      obtain rfl := Option.some.inj (htarget.symm.trans htarget')
      cases hexchanged with
      | removalRaised => simp at hok
      | added hremoval haddition =>
          cases hremoval with
          | forced hforced' => exact absurd hforced' hforced
          | refused => simp at hok
          | removed =>
              rw [← (w.sameTables_editRoles discordId (takeRole other)).dayMap guildId] at hmapped
              obtain ⟨hresult, hheld⟩ := haddition.heldDayRoles
                (fun exchange hmem => hok exchange (List.mem_append_right _ hmem))
                (World.members_editRoles hmember _) hmapped
              rw [heldDayRoles_takeRole_eq_empty hmember hother hone, insert_empty_eq] at hheld
              exact ⟨hresult, hheld⟩

/-- An unassign takes the role of its day away. -/
theorem Unassigned.held_of_ok {dayNumber : Option ℤ}
    (h : Unassigned w discordId dayNumber (w.dayMap guildId) trace value w')
    (hok : ∀ exchange ∈ trace, exchange.2 = .ok ())
    (htarget : dayNumber.bind ((w.dayMap guildId).lookup ·) = some target)
    (hlive : target ∈ w.guild.roles)
    (hpresent : ∃ roles, w.guild.members discordId = some roles) :
    (∃ result, value = .ok result) ∧
      w'.heldDayRoles guildId discordId = w.heldDayRoles guildId discordId \ {target} := by
  cases h with
  | notSeeded hdead => exact absurd hlive (hdead target htarget)
  | notInGuild _ _ hmember => simp [hmember] at hpresent
  | alreadyLacks htarget' _ hmember hlacks =>
      obtain rfl := Option.some.inj (htarget.symm.trans htarget')
      refine ⟨⟨_, rfl⟩, (Set.sdiff_singleton_eq_self fun hheld => ?_).symm⟩
      exact hlacks ((mem_heldDayRoles hmember).mp hheld).2
  | refused => simp at hok
  | raised => simp at hok
  | removed htarget' _ hmember hhas =>
      obtain rfl := Option.some.inj (htarget.symm.trans htarget')
      exact ⟨⟨_, rfl⟩, heldDayRoles_takeRole hmember⟩

/-! ## When calls return or are refused -/

/-- Every call of a run returned or raised `Forbidden`. -/
def ReturnsOrForbidden (trace : List (Exchange RoleEffects)) : Prop :=
  ∀ exchange ∈ trace, exchange.2 = .ok () ∨ exchange.2 = .error .forbidden

theorem ReturnsOrForbidden.ne_raised {call : RoleCall} {error : Raised}
    (h : ReturnsOrForbidden trace) (hmem : ⟨call, .error error⟩ ∈ trace) : error = .forbidden := by
  rcases h _ hmem with h | h
  · simp at h
  · exact Except.error.inj h

/-- Then the service returns a result. -/
theorem Addition.exists_result {removedIds : List ℤ} {removeFailed403 : Bool}
    (h : Addition w discordId target removedIds removeFailed403 trace value w')
    (hok : ReturnsOrForbidden trace) : ∃ result, value = .ok result := by
  cases h with
  | refused => exact ⟨_, rfl⟩
  | raised error herror => exact absurd (hok.ne_raised (List.mem_singleton_self _)) herror
  | added => exact ⟨_, rfl⟩

theorem Assigned.exists_result {dayNumber : ℤ} {dayMap : List (ℤ × ℤ)}
    (h : Assigned w discordId dayNumber dayMap trace value w') (hok : ReturnsOrForbidden trace) :
    ∃ result, value = .ok result := by
  cases h with
  | notSeeded => exact ⟨_, rfl⟩
  | notInGuild => exact ⟨_, rfl⟩
  | alreadyHas => exact ⟨_, rfl⟩
  | noOther _ _ _ _ _ haddition => exact haddition.exists_result hok
  | other _ _ _ _ _ hexchanged =>
      cases hexchanged with
      | removalRaised error herror =>
          exact absurd (hok.ne_raised (List.mem_singleton_self _)) herror
      | added _ haddition =>
          exact haddition.exists_result fun exchange hmem => hok exchange (by simp [hmem])

theorem Unassigned.exists_result {dayNumber : Option ℤ} {dayMap : List (ℤ × ℤ)}
    (h : Unassigned w discordId dayNumber dayMap trace value w') (hok : ReturnsOrForbidden trace) :
    ∃ result, value = .ok result := by
  cases h with
  | raised error _ _ _ _ herror =>
      exact absurd (hok.ne_raised (List.mem_singleton_self _)) herror
  | notSeeded => exact ⟨_, rfl⟩
  | notInGuild => exact ⟨_, rfl⟩
  | alreadyLacks => exact ⟨_, rfl⟩
  | refused => exact ⟨_, rfl⟩
  | removed => exact ⟨_, rfl⟩

/-! ## The reason of a result -/

/-- The reason codes of the service. -/
def reasonCodes : List String :=
  [REASON_MEMBER_NOT_IN_GUILD, REASON_ROLE_NOT_SEEDED, REASON_ALREADY_HAS_ROLE,
    REASON_ALREADY_LACKS_ROLE, REASON_REMOVE_OTHER_DAY_FAILED_403]

/-- A result without a reason, or with one of the codes. -/
def RoleSyncResult.Coded (result : RoleSyncResult) : Prop :=
  ∀ reason ∈ result.reason, reason ∈ reasonCodes

section Reasons

variable {result : RoleSyncResult}

theorem RoleSyncResult.Coded.skip {code : String} (hcode : code ∈ reasonCodes) :
    (RoleSyncResult.skip code).Coded := by
  rintro reason hreason
  rwa [← Option.some.inj hreason]

theorem Addition.coded {removedIds : List ℤ} {removeFailed403 : Bool}
    (h : Addition w discordId target removedIds removeFailed403 trace (.ok result) w') :
    result.Coded := by
  generalize hvalue : (Except.ok result : Except PyError RoleSyncResult) = value at h
  cases h with
  | refused =>
      obtain rfl := Except.ok.inj hvalue
      exact fun reason hreason => absurd hreason (by simp)
  | raised => exact absurd hvalue (by simp)
  | added =>
      obtain rfl := Except.ok.inj hvalue
      cases removeFailed403 <;> simp [RoleSyncResult.Coded, reasonCodes]

theorem Assigned.coded {dayNumber : ℤ} {dayMap : List (ℤ × ℤ)}
    (h : Assigned w discordId dayNumber dayMap trace (.ok result) w') :
    result.Coded := by
  cases h with
  | notSeeded => exact .skip (by simp [reasonCodes])
  | notInGuild => exact .skip (by simp [reasonCodes])
  | alreadyHas => exact .skip (by simp [reasonCodes])
  | noOther _ _ _ _ _ haddition => exact haddition.coded
  | other _ _ _ _ _ hexchanged =>
      cases hexchanged with
      | added _ haddition => exact haddition.coded

theorem Unassigned.coded {dayNumber : Option ℤ} {dayMap : List (ℤ × ℤ)}
    (h : Unassigned w discordId dayNumber dayMap trace (.ok result) w') :
    result.Coded := by
  cases h with
  | notSeeded => exact .skip (by simp [reasonCodes])
  | notInGuild => exact .skip (by simp [reasonCodes])
  | alreadyLacks => exact .skip (by simp [reasonCodes])
  | refused => exact fun reason hreason => absurd hreason (by simp)
  | removed => exact fun reason hreason => absurd hreason (by simp)

theorem runs_applyDayRole_coded {guildId : ℤ} {action : Action} {dayNumber : Option ℤ}
    (h : (applyDayRole guildId discordId action dayNumber).Runs roleMachine w trace (.ok result)
      w') : result.Coded := by
  cases action with
  | unassign => exact (runs_applyDayRole_unassign h).coded
  | assign =>
      cases dayNumber with
      | none => exact absurd h.2.1 (by simp)
      | some dayNumber => exact (runs_applyDayRole_assign h).coded

end Reasons

end MomBot.Roles
