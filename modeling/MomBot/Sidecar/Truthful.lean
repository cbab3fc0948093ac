import MomBot.Sidecar.Handling

/-!
# What an unassign may claim

An unassign does not name the day: it removes the role of the day that the row
records, and answers `applied` or `already_lacks_role`.  The answer is true
exactly when the row records the day of every day role the member holds
(`Recorded`).

`Recorded` is not an invariant.  A refused removal leaves a role behind while
the row moves on, and so does an assign of a day that has no role.  It is kept
by every request that does neither (`Clean`, `recorded_of_clean`), so in runs of
such requests every unassign is truthful.
-/

namespace MomBot.Sidecar

open Cooperative Roles Python

/-- The world the requests start in: the member is present and holds no day
role, there is no row, and the day map is injective with live roles. -/
structure Unsynced (guildId : ℤ) (w : World) (discordId : String) (memberId : ℤ) : Prop where
  isNumber : int discordId = some memberId
  noRow : w.states discordId = none
  present : ∃ roles, w.guild.members memberId = some roles
  noDayRole : w.heldDayRoles guildId memberId = ∅
  injective : ((w.dayMap guildId).map Prod.snd).Nodup
  live : ∀ role ∈ (w.dayMap guildId).map Prod.snd, role ∈ w.guild.roles

/-- The worlds reached by handling requests of one member one at a time, with
increasing `assigned_at`, where every request meets `allowed`. -/
inductive Reached (codec : JsonCodec) (guildId : ℤ) (discordId : String)
    (allowed : World → RoleSyncRequest → List (Exchange RoleEffects) → Prop) (w₀ : World) :
    List RoleSyncRequest → World → Prop
  | start : Reached codec guildId discordId allowed w₀ [] w₀
  | handle {past : List RoleSyncRequest} {w w' : World} {body : RoleSyncRequest}
      {trace : List (Exchange RoleEffects)} {value : Except PyError RoleSyncResponse} :
      Reached codec guildId discordId allowed w₀ past w → body.discordId = discordId →
      (∀ earlier ∈ past, earlier.assignedAt < body.assignedAt) → ReturnsOrForbidden trace →
      allowed w body trace →
      (roleSync codec guildId body).Runs roleMachine w trace value w' →
      Reached codec guildId discordId allowed w₀ (past ++ [body]) w'

/-- The row records the day of every day role that the member holds. -/
def Recorded (guildId : ℤ) (discordId : String) (memberId : ℤ) (w : World) : Prop :=
  w.heldDayRoles guildId memberId ⊆ w.rolesOfDay guildId (recordedDay w discordId)

/-- The two answers that say no day role is left. -/
def SaysNone (response : RoleSyncResponse) : Prop :=
  response.status = .applied ∨
    response.status = .skipped ∧ response.reason = some REASON_ALREADY_LACKS_ROLE

/-- A request that lets no day role out of the record. -/
structure Clean (guildId memberId : ℤ) (w : World) (body : RoleSyncRequest)
    (trace : List (Exchange RoleEffects)) : Prop where
  /-- No removal is refused. -/
  removes : ∀ role, (⟨.removeRoles memberId role, .error .forbidden⟩ : Exchange RoleEffects) ∉ trace
  /-- The development seam does not refuse one either. -/
  notForced : w.forcePartial = some (toString memberId) → body.action = .assign →
    w.heldDayRoles guildId memberId ⊆ w.rolesOfDay guildId body.dayNumber
  /-- A day without a role is assigned only to a member without day roles. -/
  mapped : body.action = .assign → w.rolesOfDay guildId body.dayNumber = ∅ →
    w.heldDayRoles guildId memberId = ∅

/-! ## What every run keeps -/

/-- What all requests leave as it was, and what the row can be. -/
structure Kept (codec : JsonCodec) (guildId : ℤ) (discordId : String) (memberId : ℤ)
    (past : List RoleSyncRequest) (w : World) : Prop where
  present : ∃ roles, w.guild.members memberId = some roles
  live : ∀ role ∈ (w.dayMap guildId).map Prod.snd, role ∈ w.guild.roles
  row : ∀ row, w.states discordId = some row →
    ∃ body ∈ past, ∃ result, row = freshRow codec body result

variable {codec : JsonCodec} {guildId memberId : ℤ} {discordId : String} {w₀ w w' : World}
  {past : List RoleSyncRequest} {body : RoleSyncRequest} {trace : List (Exchange RoleEffects)}
  {allowed : World → RoleSyncRequest → List (Exchange RoleEffects) → Prop}

theorem Kept.live_of_lookup (h : Kept codec guildId discordId memberId past w) {day role : ℤ}
    (hlookup : (w.dayMap guildId).lookup day = some role) : role ∈ w.guild.roles :=
  h.live role (mem_dayRoles_of_lookup hlookup)

/-- A request that is newer than all before it is never answered from the row. -/
theorem Kept.rowAnswer_eq_none (h : Kept codec guildId discordId memberId past w)
    (hid : body.discordId = discordId)
    (hnewer : ∀ earlier ∈ past, earlier.assignedAt < body.assignedAt) :
    rowAnswer codec w body = none := by
  rw [rowAnswer, hid]
  cases hrow : w.states discordId with
  | none => rfl
  | some row =>
      obtain ⟨earlier, hmem, result, rfl⟩ := h.row row hrow
      have hlt := hnewer earlier hmem
      have hkey : ¬ keyMatches (freshRow codec earlier result) body :=
        fun hkey => hlt.ne hkey.1
      rw [Option.bind_some, storedAnswer_freshRow, if_neg hkey, staleWrite]
      exact if_neg hlt.not_gt

/-- A request that is newer than the row finds no recorded day, or goes through
the service to a new row. -/
theorem Kept.handled_cases (h : Kept codec guildId discordId memberId past w)
    (hid : body.discordId = discordId) (hnumber : int discordId = some memberId)
    (hnewer : ∀ earlier ∈ past, earlier.assignedAt < body.assignedAt)
    (hok : ReturnsOrForbidden trace) {value : Except PyError RoleSyncResponse}
    (hruns : (roleSync codec guildId body).Runs roleMachine w trace value w') :
    (body.action = .unassign ∧ recordedDay w discordId = none ∧ w' = w) ∨
      ∃ result w₁, (applyDayRole guildId memberId body.action (resolvedDay w body)).Runs
          roleMachine w trace (.ok result) w₁ ∧ value = .ok (.ofResult result) ∧
        w' = w₁.upsert (freshRow codec body result) := by
  subst hid
  have hnone := h.rowAnswer_eq_none rfl hnewer
  cases runs_roleSync hruns with
  | stored hanswer => simp [hnone] at hanswer
  | nothingRecorded _ haction hday =>
      rw [resolvedDay, haction] at hday
      exact .inl ⟨haction, hday, rfl⟩
  | notANumber _ hnot => simp [hnumber] at hnot
  | raised _ hnumber' _ hservice =>
      obtain ⟨result, hresult⟩ := exists_result_of_runs hok hservice
      simp at hresult
  | written _ hnumber' _ hservice =>
      obtain rfl := Option.some.inj (hnumber.symm.trans hnumber')
      exact .inr ⟨_, _, hservice, rfl, rfl⟩

/-- **Step lemma.** -/
theorem Kept.handle (h : Kept codec guildId discordId memberId past w)
    (hid : body.discordId = discordId) (hnumber : int discordId = some memberId)
    (hnewer : ∀ earlier ∈ past, earlier.assignedAt < body.assignedAt)
    (hok : ReturnsOrForbidden trace) {value : Except PyError RoleSyncResponse}
    (hruns : (roleSync codec guildId body).Runs roleMachine w trace value w') :
    Kept codec guildId discordId memberId (past ++ [body]) w' := by
  rcases h.handled_cases hid hnumber hnewer hok hruns with
    ⟨-, -, rfl⟩ | ⟨result, w₁, hservice, -, rfl⟩
  · refine ⟨h.present, h.live, fun row hrow => ?_⟩
    obtain ⟨earlier, hmem, result, heq⟩ := h.row row hrow
    exact ⟨earlier, by simp [hmem], result, heq⟩
  · have hsame := runs_applyDayRole_sameTables hservice
    refine ⟨hsame.present h.present, ?_, fun row hrow => ?_⟩
    · intro role hrole
      have hmap : (w₁.upsert (freshRow codec body result)).dayMap guildId = w.dayMap guildId :=
        hsame.dayMap guildId
      rw [hmap] at hrole
      exact hsame.roles ▸ h.live role hrole
    · subst hid
      rw [states_upsert_freshRow, Option.some.injEq] at hrow
      exact ⟨body, by simp, result, hrow.symm⟩

/-- **Run lemma.** -/
theorem kept_of_reached (hstart : Unsynced guildId w₀ discordId memberId)
    (h : Reached codec guildId discordId allowed w₀ past w) :
    Kept codec guildId discordId memberId past w := by
  induction h with
  | start => exact ⟨hstart.present, hstart.live, by simp [hstart.noRow]⟩
  | handle _ hid hnewer hok _ hruns ih => exact ih.handle hid hstart.isNumber hnewer hok hruns

/-! ## When the answer is true -/

/-- **One unassign.**  Its answer that no day role is left is true exactly if the
row recorded the day of every day role the member held. -/
theorem held_eq_empty_iff_recorded (h : Kept codec guildId discordId memberId past w)
    (hid : body.discordId = discordId) (hnumber : int discordId = some memberId)
    (haction : body.action = .unassign)
    (hnewer : ∀ earlier ∈ past, earlier.assignedAt < body.assignedAt)
    (hok : ReturnsOrForbidden trace) {response : RoleSyncResponse} (hanswer : SaysNone response)
    (hruns : (roleSync codec guildId body).Runs roleMachine w trace (.ok response) w') :
    w'.heldDayRoles guildId memberId = ∅ ↔ Recorded guildId discordId memberId w := by
  rcases h.handled_cases hid hnumber hnewer hok hruns with
    ⟨-, hday, rfl⟩ | ⟨result, w₁, hservice, hresponse, rfl⟩
  · rw [Recorded, hday, World.rolesOfDay_none, Set.subset_empty_iff]
  · have hresolved : resolvedDay w body = recordedDay w discordId := by
      rw [resolvedDay, haction, hid]
    have hheld : (w₁.upsert (freshRow codec body result)).heldDayRoles guildId memberId =
        w₁.heldDayRoles guildId memberId := rfl
    rw [hresolved, haction] at hservice
    rw [Except.ok.injEq] at hresponse
    rw [hresponse, SaysNone, RoleSyncResponse.ofResult] at hanswer
    rw [hheld, Recorded]
    generalize hvalue : (Except.ok result : Except PyError RoleSyncResult) = value at hservice
    cases runs_applyDayRole_unassign hservice with
    | notSeeded =>
        obtain rfl := Except.ok.inj hvalue
        exact absurd hanswer (by decide)
    | notInGuild =>
        obtain rfl := Except.ok.inj hvalue
        exact absurd hanswer (by decide)
    | alreadyLacks hlookup _ hmember hlacks =>
        rw [World.rolesOfDay_of_bind hlookup]
        constructor
        · intro hempty
          rw [hempty]
          exact Set.empty_subset _
        · exact heldDayRoles_eq_empty_of_lacks hmember hlacks
    | refused =>
        obtain rfl := Except.ok.inj hvalue
        simp at hanswer
    | raised error => simp at hvalue
    | removed hlookup _ hmember _ =>
        rw [World.rolesOfDay_of_bind hlookup, heldDayRoles_takeRole hmember, Set.sdiff_eq_empty]

/-! ## Runs of clean requests -/

/-- The role added to a member without a day role is the only one. -/
private theorem held_subset_of_addition {w₁ : World} {day target : ℤ} {roles removedIds : List ℤ}
    {failed : Bool} {value : Except PyError RoleSyncResult} (hsame : w.SameTables w₁)
    (htarget : (w.dayMap guildId).lookup day = some target)
    (hmember : w₁.guild.members memberId = some roles)
    (hempty : w₁.heldDayRoles guildId memberId = ∅)
    (haddition : Addition w₁ memberId target removedIds failed trace value w') :
    w'.heldDayRoles guildId memberId ⊆ w.rolesOfDay guildId (some day) := by
  have hmapped : target ∈ (w₁.dayMap guildId).map Prod.snd :=
    hsame.dayMap guildId ▸ mem_dayRoles_of_lookup htarget
  have hsub := haddition.heldDayRoles_subset hmember hmapped
  rw [hempty, insert_empty_eq] at hsub
  rwa [World.rolesOfDay_of_lookup htarget]

/-- The exchange of two day roles, where no removal is refused. -/
private theorem held_subset_of_exchanged {day target other : ℤ} {roles : List ℤ}
    {value : Except PyError RoleSyncResult} (hok : ReturnsOrForbidden trace)
    (hclean : Clean guildId memberId w body trace) (haction : body.action = .assign)
    (hday : body.dayNumber = some day) (hone : (w.heldDayRoles guildId memberId).Subsingleton)
    (htarget : (w.dayMap guildId).lookup day = some target)
    (hmember : w.guild.members memberId = some roles) (hlacks : target ∉ roles)
    (hother : otherDayRole (w.dayMap guildId) day roles = some other)
    (hexchanged : Exchanged w memberId other target trace value w') :
    w'.heldDayRoles guildId memberId ⊆ w.rolesOfDay guildId (some day) := by
  cases hexchanged with
  | removalRaised error herror =>
      exact absurd (hok.ne_raised (List.mem_singleton_self _)) herror
  | added hremoval haddition =>
      cases hremoval with
      | forced hforced =>
          -- the seam is not aimed at a member with another day's role
          have hsub := hclean.notForced hforced haction (mem_heldDayRoles_of_other hmember hother)
          rw [hday, World.rolesOfDay_of_lookup htarget, Set.mem_singleton_iff] at hsub
          exact absurd (hsub ▸ (otherDayRole_some hother).1) hlacks
      | refused => exact absurd (List.mem_cons_self ..) (hclean.removes other)
      | removed =>
          exact held_subset_of_addition (w.sameTables_editRoles _ _) htarget
            (World.members_editRoles hmember _)
            (heldDayRoles_takeRole_eq_empty hmember hother hone) haddition

/-- A clean assign leaves at most the role of its own day. -/
private theorem held_subset_of_assign (h : Kept codec guildId discordId memberId past w)
    (hok : ReturnsOrForbidden trace) (hrecorded : Recorded guildId discordId memberId w)
    (hclean : Clean guildId memberId w body trace) (haction : body.action = .assign) {day : ℤ}
    (hday : body.dayNumber = some day) {value : Except PyError RoleSyncResult} {w₁ : World}
    (hassigned : Assigned w memberId day (w.dayMap guildId) trace value w₁) :
    w₁.heldDayRoles guildId memberId ⊆ w₁.rolesOfDay guildId body.dayNumber := by
  have hone : (w.heldDayRoles guildId memberId).Subsingleton :=
    (w.rolesOfDay_subsingleton _).anti hrecorded
  rw [hassigned.sameTables.rolesOfDay, hday]
  cases hassigned with
  | notSeeded hdead =>
      have hunmapped : (w.dayMap guildId).lookup day = none := by
        by_contra hsome
        obtain ⟨target, htarget⟩ := Option.ne_none_iff_exists'.mp hsome
        exact hdead target htarget (h.live_of_lookup htarget)
      have hempty := hclean.mapped haction
        (by rw [hday, World.rolesOfDay_of_lookup_none hunmapped])
      rw [hempty]
      exact Set.empty_subset _
  | notInGuild _ _ hmember =>
      obtain ⟨roles, hroles⟩ := h.present
      simp [hmember] at hroles
  | alreadyHas htarget _ hmember hhas =>
      have hheld := (mem_heldDayRoles hmember).mpr ⟨mem_dayRoles_of_lookup htarget, hhas⟩
      rw [hone.eq_singleton_of_mem hheld, World.rolesOfDay_of_lookup htarget]
  | noOther htarget _ hmember hlacks hother haddition =>
      exact held_subset_of_addition (.refl w) htarget hmember
        (heldDayRoles_eq_empty_of_noOther hmember htarget hlacks hother) haddition
  | other htarget _ hmember hlacks hother hexchanged =>
      exact held_subset_of_exchanged hok hclean haction hday hone htarget hmember hlacks hother
        hexchanged

/-- A clean unassign of a recorded member leaves no day role. -/
private theorem held_eq_empty_of_unassign (h : Kept codec guildId discordId memberId past w)
    (hok : ReturnsOrForbidden trace) (hrecorded : Recorded guildId discordId memberId w)
    (hclean : Clean guildId memberId w body trace) {value : Except PyError RoleSyncResult}
    {w₁ : World} (hunassigned : Unassigned w memberId (recordedDay w discordId)
      (w.dayMap guildId) trace value w₁) :
    w₁.heldDayRoles guildId memberId = ∅ := by
  rw [Recorded] at hrecorded
  cases hunassigned with
  | notSeeded hdead =>
      refine Set.subset_empty_iff.mp (hrecorded.trans ?_)
      rintro role ⟨day, hday, hlookup⟩
      exact hdead role (by simp [hday, hlookup]) (h.live_of_lookup hlookup)
  | notInGuild _ _ hmember =>
      obtain ⟨roles, hroles⟩ := h.present
      simp [hmember] at hroles
  | alreadyLacks hlookup _ hmember hlacks =>
      rw [World.rolesOfDay_of_bind hlookup] at hrecorded
      exact heldDayRoles_eq_empty_of_lacks hmember hlacks hrecorded
  | @refused target => exact absurd (List.mem_cons_self ..) (hclean.removes target)
  | raised error _ _ _ _ herror => exact absurd (hok.ne_raised (List.mem_singleton_self _)) herror
  | removed hlookup _ hmember _ =>
      rw [World.rolesOfDay_of_bind hlookup] at hrecorded
      rw [heldDayRoles_takeRole hmember, Set.sdiff_eq_empty]
      exact hrecorded

/-- **Step lemma, clean requests.**  They keep the record complete. -/
theorem recorded_of_clean (h : Kept codec guildId discordId memberId past w)
    (hid : body.discordId = discordId) (hnumber : int discordId = some memberId)
    (hnewer : ∀ earlier ∈ past, earlier.assignedAt < body.assignedAt)
    (hok : ReturnsOrForbidden trace) (hclean : Clean guildId memberId w body trace)
    (hrecorded : Recorded guildId discordId memberId w) {value : Except PyError RoleSyncResponse}
    (hruns : (roleSync codec guildId body).Runs roleMachine w trace value w') :
    Recorded guildId discordId memberId w' := by
  rcases h.handled_cases hid hnumber hnewer hok hruns with
    ⟨-, -, rfl⟩ | ⟨result, w₁, hservice, -, rfl⟩
  · exact hrecorded
  · have hday : recordedDay (w₁.upsert (freshRow codec body result)) discordId =
        body.dayNumber := by
      rw [recordedDay, ← hid, states_upsert_freshRow]
      rfl
    rw [Recorded, hday]
    show w₁.heldDayRoles guildId memberId ⊆ w₁.rolesOfDay guildId body.dayNumber
    cases haction : body.action with
    | assign =>
        obtain ⟨day, hday⟩ := body.exists_dayNumber haction
        rw [resolvedDay, haction] at hservice
        simp only [hday] at hservice
        exact held_subset_of_assign h hok hrecorded hclean haction hday
          (runs_applyDayRole_assign hservice)
    | unassign =>
        rw [resolvedDay, haction, hid] at hservice
        rw [held_eq_empty_of_unassign h hok hrecorded hclean (runs_applyDayRole_unassign hservice)]
        exact Set.empty_subset _

/-- **Run lemma, clean requests.** -/
theorem recorded_of_reached (hstart : Unsynced guildId w₀ discordId memberId)
    (h : Reached codec guildId discordId (Clean guildId memberId) w₀ past w) :
    Recorded guildId discordId memberId w := by
  induction h with
  | start =>
      rw [Recorded, hstart.noDayRole]
      exact Set.empty_subset _
  | handle hreached hid hnewer hok hclean hruns ih =>
      exact recorded_of_clean (kept_of_reached hstart hreached) hid hstart.isNumber hnewer hok
        hclean ih hruns

/-- **When an unassign is truthful.**  In every reachable world, the answer that
no day role is left is true exactly if the row records the day of every day role
held before; and in runs of clean requests it is always true. -/
theorem roleSync_unassign_truthful (hstart : Unsynced guildId w₀ discordId memberId)
    (hid : body.discordId = discordId) (haction : body.action = .unassign)
    (hnewer : ∀ earlier ∈ past, earlier.assignedAt < body.assignedAt)
    (hok : ReturnsOrForbidden trace) {response : RoleSyncResponse} (hanswer : SaysNone response)
    (hruns : (roleSync codec guildId body).Runs roleMachine w trace (.ok response) w') :
    (Reached codec guildId discordId (fun _ _ _ => True) w₀ past w →
      (w'.heldDayRoles guildId memberId = ∅ ↔ Recorded guildId discordId memberId w)) ∧
    (Reached codec guildId discordId (Clean guildId memberId) w₀ past w →
      w'.heldDayRoles guildId memberId = ∅) := by
  have hiff : ∀ {allowed}, Reached codec guildId discordId allowed w₀ past w →
      (w'.heldDayRoles guildId memberId = ∅ ↔ Recorded guildId discordId memberId w) :=
    fun hreached => held_eq_empty_iff_recorded (kept_of_reached hstart hreached) hid
      hstart.isNumber haction hnewer hok hanswer hruns
  constructor
  · exact hiff
  · intro hreached
    exact (hiff hreached).mpr (recorded_of_reached hstart hreached)

/-! ## A refused removal -/

theorem smallGuild_unsynced : Unsynced 1 smallGuild "7" 7 where
  isNumber := by decide
  noRow := rfl
  present := ⟨[], rfl⟩
  noDayRole := by
    ext role
    simp [World.heldDayRoles, smallGuild]
  injective := by decide
  live := by decide

/-- An assign and then an unassign, both accepted by Discord. -/
theorem roleSync_unassign_truthful_assign :
    ∃ w w', Reached intLists 1 "7" (Clean 1 7) smallGuild [assignRequest 1 "T1"] w ∧
      (roleSync intLists 1 (unassignRequest "T2")).Runs roleMachine w
        [⟨.removeRoles 7 101, .ok ()⟩] (.ok ⟨.applied, [], [101], none, none⟩) w' ∧
      w'.heldDayRoles 1 7 = ∅ := by
  have hassign : ∃ w, (roleSync intLists 1 (assignRequest 1 "T1")).Runs roleMachine smallGuild
      [⟨.addRoles 7 101, .ok ()⟩] (.ok ⟨.applied, [101], [], none, none⟩) w ∧
      ∃ w', (roleSync intLists 1 (unassignRequest "T2")).Runs roleMachine w
        [⟨.removeRoles 7 101, .ok ()⟩] (.ok ⟨.applied, [], [101], none, none⟩) w' :=
    ⟨_, ⟨.ok (), [], rfl, rfl, rfl, rfl⟩, _, .ok (), [], rfl, rfl, rfl, rfl⟩
  obtain ⟨w, hfirst, w', hsecond⟩ := hassign
  have hclean : Clean 1 7 smallGuild (assignRequest 1 "T1") [⟨.addRoles 7 101, .ok ()⟩] :=
    ⟨by simp, by simp [smallGuild], fun _ _ => smallGuild_unsynced.noDayRole⟩
  have hreached : Reached intLists 1 "7" (Clean 1 7) smallGuild ([] ++ [assignRequest 1 "T1"]) w :=
    .handle .start rfl (by simp) (by simp [ReturnsOrForbidden]) hclean hfirst
  refine ⟨w, w', hreached, hsecond, ?_⟩
  exact (roleSync_unassign_truthful smallGuild_unsynced rfl rfl (by decide)
    (by simp [ReturnsOrForbidden]) (.inl rfl) hsecond).2 hreached

/-- **A refused removal is forgotten.**  After an assign, an unassign that
Discord refuses clears the recorded day; the next unassign then answers
`already_lacks_role` while the role is still held. -/
theorem roleSync_unassign_untruthful :
    Unsynced 1 smallGuild "7" 7 ∧
    ∃ w w', Reached intLists 1 "7" (fun _ _ _ => True) smallGuild
        [assignRequest 1 "T1", unassignRequest "T2"] w ∧
      (roleSync intLists 1 (unassignRequest "T3")).Runs roleMachine w [] (.ok nothingRecorded) w' ∧
      SaysNone nothingRecorded ∧ 101 ∈ w'.heldDayRoles 1 7 := by
  have hruns : ∃ w₁, (roleSync intLists 1 (assignRequest 1 "T1")).Runs roleMachine smallGuild
      [⟨.addRoles 7 101, .ok ()⟩] (.ok ⟨.applied, [101], [], none, none⟩) w₁ ∧
      ∃ w₂, (roleSync intLists 1 (unassignRequest "T2")).Runs roleMachine w₁
        [⟨.removeRoles 7 101, .error .forbidden⟩] (.ok ⟨.failed, [], [], none, none⟩) w₂ ∧
      ∃ w₃, (roleSync intLists 1 (unassignRequest "T3")).Runs roleMachine w₂ []
        (.ok nothingRecorded) w₃ ∧ 101 ∈ w₃.heldDayRoles 1 7 :=
    ⟨_, ⟨.ok (), [], rfl, rfl, rfl, rfl⟩, _, ⟨.error .forbidden, [], rfl, rfl, rfl, rfl⟩, _,
      ⟨rfl, rfl, rfl⟩, by decide, [101], rfl, by decide⟩
  obtain ⟨w₁, hfirst, w₂, hsecond, w₃, hthird, hheld⟩ := hruns
  have hreached₁ : Reached intLists 1 "7" (fun _ _ _ => True) smallGuild
      ([] ++ [assignRequest 1 "T1"]) w₁ :=
    .handle .start rfl (by simp) (by simp [ReturnsOrForbidden]) trivial hfirst
  have hreached₂ := Reached.handle hreached₁ rfl (by decide) (by simp [ReturnsOrForbidden]) trivial
    hsecond
  exact ⟨smallGuild_unsynced, w₂, w₃, hreached₂, hthird, .inr ⟨rfl, rfl⟩, hheld⟩

end MomBot.Sidecar
