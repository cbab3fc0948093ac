import MomBot.Roles.Report

/-!
# One day role after an assign

An assign takes at most one other day's role away, and none when the member
already has the role of the day.  `Taking` is what it does to the day roles a
member holds, `Taking.eq_singleton_iff` says when one role is left: exactly if
at most one was held before.  A partial outcome leaves two, and the next assign
does not repair that.
-/

namespace MomBot.Roles

open Cooperative

variable {w w' : World} {guildId discordId dayNumber target : ℤ} {roles : List ℤ}
  {trace : List (Exchange RoleEffects)} {value : Except PyError RoleSyncResult}

/-- The world after an assign whose calls Discord all accepts. -/
def World.assign (w : World) (guildId discordId dayNumber : ℤ) : World :=
  ((applyDayRole guildId discordId .assign (some dayNumber)).eval roleMachine allReturn w).2

/-- The roles that the map of a guild names. -/
def World.dayRoles (w : World) (guildId : ℤ) : Set ℤ :=
  {role | role ∈ (w.dayMap guildId).map Prod.snd}

/-- The roles a member holds besides the day roles. -/
def World.heldOtherRoles (w : World) (guildId discordId : ℤ) : Set ℤ :=
  w.rolesOf discordId \ w.dayRoles guildId

@[simp] theorem World.dayRoles_editRoles (w : World) (guildId discordId : ℤ)
    (edit : List ℤ → List ℤ) :
    (w.editRoles discordId edit).dayRoles guildId = w.dayRoles guildId := by
  rw [World.dayRoles, (w.sameTables_editRoles _ _).dayMap, World.dayRoles]

/-! ## What an assign does to the day roles -/

/-- The target joins the roles held, and `taken` leaves them.  Nothing is taken
if the target was held, or while 403s are forced for the member. -/
structure Taking (forced : Prop) (target : ℤ) (held taken held' : Set ℤ) : Prop where
  one : taken.Subsingleton
  subset : taken ⊆ held
  nothing : target ∈ held ∨ forced → taken = ∅
  something : target ∉ held → ¬forced → held.Nonempty → taken.Nonempty
  after : held' = insert target (held \ taken)

/-- Exactly the target is left, if it was the only one to keep. -/
theorem Taking.eq_singleton_iff {forced : Prop} {held taken held' : Set ℤ}
    (h : Taking forced target held taken held') :
    held' = {target} ↔ held.Subsingleton ∧ (forced → held ⊆ {target}) := by
  have hleft : held' = {target} ↔ held \ taken ⊆ {target} := by
    rw [h.after, ← insert_empty_eq, Set.insert_eq, Set.insert_eq, Set.union_empty,
      Set.union_eq_left]
  rw [hleft]
  constructor
  · intro hsub
    by_cases hnothing : target ∈ held ∨ forced
    · rw [h.nothing hnothing, Set.sdiff_empty] at hsub
      exact ⟨Set.subsingleton_singleton.anti hsub, fun _ => hsub⟩
    · obtain ⟨hlacks, hforced⟩ := not_or.mp hnothing
      have htaken : held ⊆ taken := by
        intro role hrole
        by_contra hkept
        obtain rfl := hsub ⟨hrole, hkept⟩
        exact hlacks hrole
      exact ⟨h.one.anti htaken, fun hf => absurd hf hforced⟩
  · rintro ⟨hone, hforced⟩ role ⟨hrole, hkept⟩
    by_cases hhas : target ∈ held
    · exact hone hrole hhas
    · by_cases hf : forced
      · exact hforced hf hrole
      · -- the one role held is the one taken
        obtain ⟨other, hother⟩ := h.something hhas hf ⟨role, hrole⟩
        obtain rfl := hone hrole (h.subset hother)
        exact absurd hother hkept

theorem Taking.ofAdded {forced : Prop} {held after : Set ℤ}
    (hsomething : target ∉ held → ¬ forced → ¬ held.Nonempty)
    (hafter : after = insert target held) :
    Taking forced target held ∅ after where
  one := Set.subsingleton_empty
  subset := Set.empty_subset _
  nothing _ := rfl
  something hlacks hf hheld := absurd hheld (hsomething hlacks hf)
  after := by rw [Set.sdiff_empty, hafter]

/-- The other day's role goes, unless the seam keeps it. -/
theorem Exchanged.taking {other : ℤ}
    (h : Exchanged w discordId other target trace value w')
    (hok : ∀ exchange ∈ trace, exchange.2 = .ok ())
    (hmapped : target ∈ (w.dayMap guildId).map Prod.snd)
    (hmember : w.guild.members discordId = some roles) (hlacks : target ∉ roles)
    (hother : otherDayRole (w.dayMap guildId) dayNumber roles = some other) :
    ∃ taken, Taking (w.forcePartial = some (toString discordId)) target
      (w.heldDayRoles guildId discordId) taken (w'.heldDayRoles guildId discordId) := by
  cases h with
  | removalRaised => simp at hok
  | added hremoval haddition =>
      cases hremoval with
      | forced hforced =>
          refine ⟨∅, .ofAdded (fun _ hf => absurd hforced hf) ?_⟩
          exact (haddition.heldDayRoles hok hmember hmapped).2
      | refused => simp at hok
      | removed hforced =>
          have hmember₁ := World.members_editRoles hmember (takeRole other)
          rw [← (w.sameTables_editRoles discordId (takeRole other)).dayMap guildId] at hmapped
          have hok₁ := fun exchange hmem => hok exchange (List.mem_append_right _ hmem)
          refine ⟨{other}, Set.subsingleton_singleton, ?_, ?_, ?_, ?_⟩
          · exact Set.singleton_subset_iff.mpr (mem_heldDayRoles_of_other hmember hother)
          · rintro (hheld | hf)
            · exact absurd ((mem_heldDayRoles hmember).mp hheld).2 hlacks
            · exact absurd hf hforced
          · exact fun _ _ _ => Set.singleton_nonempty other
          · rw [(haddition.heldDayRoles hok₁ hmember₁ hmapped).2, heldDayRoles_takeRole hmember]

theorem Assigned.taking
    (h : Assigned w discordId dayNumber (w.dayMap guildId) trace value w')
    (hok : ∀ exchange ∈ trace, exchange.2 = .ok ())
    (htarget : (w.dayMap guildId).lookup dayNumber = some target) (hlive : target ∈ w.guild.roles)
    (hpresent : w.guild.members discordId = some roles) :
    ∃ taken, Taking (w.forcePartial = some (toString discordId)) target
      (w.heldDayRoles guildId discordId) taken (w'.heldDayRoles guildId discordId) := by
  have hmapped := mem_dayRoles_of_lookup htarget
  cases h with
  | notSeeded hdead => exact absurd hlive (hdead target htarget)
  | notInGuild _ _ hmember => simp [hmember] at hpresent
  | alreadyHas htarget' _ hmember hhas =>
      obtain rfl := Option.some.inj (htarget.symm.trans htarget')
      have hheld : target ∈ w.heldDayRoles guildId discordId :=
        (mem_heldDayRoles hmember).mpr ⟨hmapped, hhas⟩
      exact ⟨∅, .ofAdded (fun hlacks => absurd hheld hlacks) (Set.insert_eq_of_mem hheld).symm⟩
  | noOther htarget' _ hmember hlacks hother haddition =>
      obtain rfl := Option.some.inj (htarget.symm.trans htarget')
      have hempty := heldDayRoles_eq_empty_of_noOther hmember htarget hlacks hother
      refine ⟨∅, .ofAdded (fun _ _ hnonempty => hnonempty.ne_empty hempty) ?_⟩
      exact (haddition.heldDayRoles hok hmember hmapped).2
  | other htarget' _ hmember hlacks hother hexchanged =>
      obtain rfl := Option.some.inj (htarget.symm.trans htarget')
      exact hexchanged.taking hok hmapped hmember hlacks hother

/-! ## The other roles -/

theorem heldOtherRoles_giveRole (hmember : w.guild.members discordId = some roles)
    (hmapped : target ∈ w.dayRoles guildId) :
    (w.editRoles discordId (giveRole target)).heldOtherRoles guildId discordId =
      w.heldOtherRoles guildId discordId := by
  rw [World.heldOtherRoles, World.rolesOf_giveRole target hmember, World.dayRoles_editRoles,
    Set.insert_sdiff_of_mem _ hmapped, World.heldOtherRoles]

theorem heldOtherRoles_takeRole (hmember : w.guild.members discordId = some roles)
    (hmapped : target ∈ w.dayRoles guildId) :
    (w.editRoles discordId (takeRole target)).heldOtherRoles guildId discordId =
      w.heldOtherRoles guildId discordId := by
  have hkept : target ∉ w.heldOtherRoles guildId discordId := fun h => h.2 hmapped
  rw [World.heldOtherRoles, World.rolesOf_takeRole target hmember, World.dayRoles_editRoles,
    Set.sdiff_sdiff_comm]
  exact Set.sdiff_singleton_eq_self hkept

theorem Addition.heldOtherRoles {removedIds : List ℤ} {removeFailed403 : Bool}
    (h : Addition w discordId target removedIds removeFailed403 trace value w')
    (hmember : w.guild.members discordId = some roles)
    (hmapped : target ∈ w.dayRoles guildId) :
    w'.heldOtherRoles guildId discordId = w.heldOtherRoles guildId discordId := by
  cases h with
  | refused => rfl
  | raised => rfl
  | added => exact heldOtherRoles_giveRole hmember hmapped

/-- An assign leaves every role alone that no day maps to. -/
theorem Assigned.heldOtherRoles
    (h : Assigned w discordId dayNumber (w.dayMap guildId) trace value w') :
    w'.heldOtherRoles guildId discordId = w.heldOtherRoles guildId discordId := by
  cases h with
  | notSeeded => rfl
  | notInGuild => rfl
  | alreadyHas => rfl
  | noOther htarget _ hmember _ _ haddition =>
      exact haddition.heldOtherRoles hmember (mem_dayRoles_of_lookup htarget)
  | @other target' other roles' trace _ w' htarget _ hmember _ hother hexchanged =>
      have hmapped : target' ∈ w.dayRoles guildId := mem_dayRoles_of_lookup htarget
      cases hexchanged with
      | removalRaised => rfl
      | added hremoval haddition =>
          cases hremoval with
          | forced => exact haddition.heldOtherRoles hmember hmapped
          | refused => exact haddition.heldOtherRoles hmember hmapped
          | removed =>
              rw [← w.dayRoles_editRoles guildId discordId (takeRole other)] at hmapped
              rw [haddition.heldOtherRoles (World.members_editRoles hmember _) hmapped]
              exact heldOtherRoles_takeRole hmember (otherDayRole_some hother).2

/-! ## Exactly one -/

/-- **The assigned day is the only one** exactly if the member held at most one
day role before, and no other one where 403s are forced for the member. -/
theorem assign_oneDayRole_iff (htarget : (w.dayMap guildId).lookup dayNumber = some target)
    (hlive : target ∈ w.guild.roles) (hpresent : w.guild.members discordId = some roles) :
    (w.assign guildId discordId dayNumber).heldDayRoles guildId discordId = {target} ∧
        (w.assign guildId discordId dayNumber).heldOtherRoles guildId discordId =
          w.heldOtherRoles guildId discordId ↔
      (w.heldDayRoles guildId discordId).Subsingleton ∧
        (w.forcePartial = some (toString discordId) →
          w.heldDayRoles guildId discordId ⊆ {target}) := by
  obtain ⟨trace, value, w', hruns, hok⟩ := Coroutine.exists_runs roleMachine allReturn
    (applyDayRole guildId discordId .assign (some dayNumber)) w
  have hassign : w.assign guildId discordId dayNumber = w' :=
    congrArg Prod.snd (hruns.eval_eq hok)
  have hassigned := runs_applyDayRole_assign hruns
  obtain ⟨taken, htaking⟩ := hassigned.taking hok htarget hlive hpresent
  rw [hassign, htaking.eq_singleton_iff]
  exact and_iff_left hassigned.heldOtherRoles

theorem assign_oneDayRole_iff_fresh :
    (threeDayGuild [102, 900]).heldDayRoles 1 7 = {102} ∧
      ((threeDayGuild [102, 900]).assign 1 7 1).heldDayRoles 1 7 = {101} := by
  have hheld : (threeDayGuild [102, 900]).heldDayRoles 1 7 = {102} := by
    ext role
    rw [mem_heldDayRoles rfl, Set.mem_singleton_iff]
    constructor
    · rintro ⟨hmapped, hrole⟩
      have hfinite : ∀ r ∈ [102, 900],
          r ∈ ((threeDayGuild [102, 900]).dayMap 1).map Prod.snd → r = 102 := by decide
      exact hfinite role hrole hmapped
    · rintro rfl
      decide
  refine ⟨hheld, ((assign_oneDayRole_iff rfl (by decide) rfl).mpr ⟨?_, ?_⟩).1⟩
  · rw [hheld]
    exact Set.subsingleton_singleton
  · intro hforced
    simp [threeDayGuild] at hforced

/-- **A partial outcome is not repaired.**  Discord refuses to take day 1 away,
so the member has days 1 and 2.  The assign of day 3 takes only one of them, and
another assign of day 2 takes none. -/
theorem assign_after_partial :
    ∃ w, (applyDayRole 1 7 .assign (some 2)).Runs roleMachine (threeDayGuild [101, 900])
        [⟨.removeRoles 7 101, .error .forbidden⟩, ⟨.addRoles 7 102, .ok ()⟩]
        (.ok ⟨.partially, [102], [], some REASON_REMOVE_OTHER_DAY_FAILED_403⟩) w ∧
      ((w.dayMap 1).map Prod.snd).Nodup ∧ w.forcePartial = none ∧
      (w.dayMap 1).lookup 2 = some 102 ∧ (w.dayMap 1).lookup 3 = some 103 ∧
      102 ∈ w.guild.roles ∧ 103 ∈ w.guild.roles ∧ w.guild.members 7 = some [101, 900, 102] ∧
      (w.assign 1 7 3).heldDayRoles 1 7 ≠ {103} ∧ (w.assign 1 7 2).heldDayRoles 1 7 ≠ {102} := by
  refine ⟨_, applyDayRole_partial, by decide, rfl, by decide, by decide, by decide, by decide,
    rfl, ?_, ?_⟩
  · intro hone
    have hmember : (((threeDayGuild [101, 900]).editRoles 7 (giveRole 102)).assign 1 7
        3).guild.members 7 = some [900, 102, 103] := rfl
    have hheld : (102 : ℤ) ∈ ({103} : Set ℤ) :=
      hone ▸ (mem_heldDayRoles hmember).mpr ⟨by decide, by decide⟩
    exact absurd (Set.mem_singleton_iff.mp hheld) (by decide)
  · intro hone
    have hmember : (((threeDayGuild [101, 900]).editRoles 7 (giveRole 102)).assign 1 7
        2).guild.members 7 = some [101, 900, 102] := rfl
    have hheld : (101 : ℤ) ∈ ({102} : Set ℤ) :=
      hone ▸ (mem_heldDayRoles hmember).mpr ⟨by decide, by decide⟩
    exact absurd (Set.mem_singleton_iff.mp hheld) (by decide)

end MomBot.Roles
