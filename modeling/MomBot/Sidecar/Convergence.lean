import Mathlib.Data.List.Induction
import Mathlib.Data.String.Lemmas
import MomBot.Sidecar.Handling

/-!
# Out-of-order delivery

Requests for one member come in any order and any number of times, and every
Discord call returns.  `Settled` is the invariant of the deliveries: the member
holds exactly the role of the recorded day, and the row is the one that an
earlier delivery wrote.

The newest assign always decides the outcome (`exists_row_of_assign`).  The
newest unassign does so only if it leaves its ordering token, and without a
recorded day it leaves none: an older assign that comes afterwards is then
handled as fresh.  `held_nonempty_iff` says exactly when a role stays, and
`roleSync_converges_iff` when the newest request wins.
-/

namespace MomBot.Sidecar

open Cooperative Roles Python

variable (codec : JsonCodec) (guildId : ℤ)

/-- Handle one request; every Discord call returns. -/
def deliver (w : World) (body : RoleSyncRequest) : World :=
  ((roleSync codec guildId body).eval roleMachine allReturn w).2

/-- Handle the requests in the order of their delivery. -/
def deliverAll (w : World) (deliveries : List RoleSyncRequest) : World :=
  deliveries.foldl (deliver codec guildId) w

/-- The deliveries and the world they start in. -/
structure FreshStart (w : World) (discordId : String) (memberId : ℤ)
    (deliveries : List RoleSyncRequest) : Prop where
  oneMember : ∀ body ∈ deliveries, body.discordId = discordId
  /-- Distinct requests have distinct `assigned_at`; duplicates are allowed. -/
  ordered : ∀ r ∈ deliveries, ∀ s ∈ deliveries, r.assignedAt = s.assignedAt → r = s
  isNumber : int discordId = some memberId
  noRow : w.states discordId = none
  present : ∃ roles, w.guild.members memberId = some roles
  noDayRole : w.heldDayRoles guildId memberId = ∅
  /-- Every day that is named has a live role. -/
  daysLive : ∀ body ∈ deliveries, ∀ day, body.dayNumber = some day →
    ∃ role, (w.dayMap guildId).lookup day = some role ∧ role ∈ w.guild.roles
  /-- The development seam that fakes a 403 is not aimed at this member. -/
  notForced : w.forcePartial ≠ some (toString memberId)

/-! ## The invariant of the deliveries -/

/-- What the deliveries `past` have left of the world `w₀`. -/
structure Settled (w₀ : World) (discordId : String) (memberId : ℤ) (past : List RoleSyncRequest)
    (w : World) : Prop where
  dayRoleMap : w.dayRoleMap = w₀.dayRoleMap
  liveRoles : w.guild.roles = w₀.guild.roles
  forcePartial : w.forcePartial = w₀.forcePartial
  present : ∃ roles, w.guild.members memberId = some roles
  /-- The row was written by one of them. -/
  row : ∀ row, w.states discordId = some row →
    ∃ body ∈ past, ∃ result, row = freshRow codec body result
  /-- The member holds the role of the recorded day and no other day role. -/
  held : w.heldDayRoles guildId memberId = w.rolesOfDay guildId (recordedDay w discordId)

variable {codec guildId} {w₀ w w' : World} {discordId : String} {memberId : ℤ}
  {past deliveries : List RoleSyncRequest} {body : RoleSyncRequest}

theorem Settled.initial (h : FreshStart guildId w₀ discordId memberId deliveries) :
    Settled codec guildId w₀ discordId memberId [] w₀ where
  dayRoleMap := rfl
  liveRoles := rfl
  forcePartial := rfl
  present := h.present
  row := by simp [h.noRow]
  held := by simp [h.noDayRole, recordedDay, h.noRow]

theorem Settled.mono {past' : List RoleSyncRequest}
    (h : Settled codec guildId w₀ discordId memberId past w) (hsub : past ⊆ past') :
    Settled codec guildId w₀ discordId memberId past' w := by
  refine { h with row := fun row hrow => ?_ }
  obtain ⟨body, hmem, result, heq⟩ := h.row row hrow
  exact ⟨body, hsub hmem, result, heq⟩

theorem Settled.dayMap (h : Settled codec guildId w₀ discordId memberId past w) :
    w.dayMap guildId = w₀.dayMap guildId := by
  rw [World.dayMap, h.dayRoleMap, World.dayMap]

theorem Settled.rolesOfDay (h : Settled codec guildId w₀ discordId memberId past w)
    (day : Option ℤ) : w.rolesOfDay guildId day = w₀.rolesOfDay guildId day := by
  rw [World.rolesOfDay, h.dayMap, World.rolesOfDay]

theorem Settled.held_subsingleton (h : Settled codec guildId w₀ discordId memberId past w) :
    (w.heldDayRoles guildId memberId).Subsingleton :=
  h.held ▸ w.rolesOfDay_subsingleton _

/-- The request is newer than the row, and an unassign finds a recorded day. -/
def Supersedes (w : World) (body : RoleSyncRequest) : Prop :=
  (∀ row, w.states body.discordId = some row → row.lastAssignedAt < body.assignedAt) ∧
    (body.action = .unassign → recordedDay w body.discordId ≠ none)

/-- A delivery is a run of the handler in which every call returned. -/
private theorem runs_deliver (codec : JsonCodec) (guildId : ℤ) (w : World)
    (body : RoleSyncRequest) :
    ∃ trace value, (roleSync codec guildId body).Runs roleMachine w trace value
      (deliver codec guildId w body) ∧ ∀ exchange ∈ trace, exchange.2 = .ok () := by
  obtain ⟨trace, value, w', hruns, hok⟩ :=
    Coroutine.exists_runs roleMachine allReturn (roleSync codec guildId body) w
  have heval := hruns.eval_eq hok
  refine ⟨trace, value, ?_, hok⟩
  rw [deliver, heval]
  exact hruns

/-- The row answers exactly the requests that are not newer. -/
private theorem rowAnswer_eq_none_iff (h : Settled codec guildId w₀ discordId memberId past w)
    (hid : body.discordId = discordId)
    (hordered : ∀ r ∈ past, r.assignedAt = body.assignedAt → r = body) :
    rowAnswer codec w body = none ↔
      ∀ row, w.states discordId = some row → row.lastAssignedAt < body.assignedAt := by
  rw [rowAnswer, hid]
  cases hrow : w.states discordId with
  | none => simp
  | some row =>
      obtain ⟨earlier, hmem, result, rfl⟩ := h.row row hrow
      have hkey : keyMatches (freshRow codec earlier result) body ↔
          earlier.assignedAt = body.assignedAt := by
        constructor
        · exact fun hkey => hkey.1
        · intro heq
          rw [hordered earlier hmem heq]
          exact keyMatches_freshRow_self result
      rw [Option.bind_some, storedAnswer_freshRow]
      have hlast : (freshRow codec earlier result).lastAssignedAt = earlier.assignedAt := rfl
      simp only [Option.some.injEq, forall_eq', hlast]
      split
      · next hmatch => simp [hkey.mp hmatch]
      · next hmatch =>
          have hne := mt hkey.mpr hmatch
          unfold staleWrite
          rw [hlast]
          split
          · next hlt => simp [hlt.not_gt]
          · next hle => simp [lt_of_le_of_ne (not_lt.mp hle) hne]

/-- What the service does for a fresh request: no error, and exactly the roles that the
request asks for. -/
private theorem service_of_supersedes
    (hstart : FreshStart guildId w₀ discordId memberId deliveries)
    (h : Settled codec guildId w₀ discordId memberId past w) (hpast : past ⊆ deliveries)
    (hbody : body ∈ deliveries) (hnew : Supersedes w body) {trace : List (Exchange RoleEffects)}
    (hok : ∀ exchange ∈ trace, exchange.2 = .ok ()) {value : Except PyError RoleSyncResult}
    (hservice : (applyDayRole guildId memberId body.action (resolvedDay w body)).Runs roleMachine w
      trace value w') :
    (∃ result, value = .ok result) ∧
      w'.heldDayRoles guildId memberId = w.rolesOfDay guildId body.dayNumber := by
  have hid := hstart.oneMember body hbody
  have hforced : w.forcePartial ≠ some (toString memberId) := h.forcePartial ▸ hstart.notForced
  cases haction : body.action with
  | assign =>
      obtain ⟨day, hday⟩ := body.exists_dayNumber haction
      obtain ⟨role, hlookup, hlive⟩ := hstart.daysLive body hbody day hday
      rw [← h.dayMap] at hlookup
      rw [resolvedDay, haction] at hservice
      simp only [hday] at hservice
      have hheld := (runs_applyDayRole_assign hservice).held_of_ok hok hlookup
        (h.liveRoles ▸ hlive) h.present hforced h.held_subsingleton
      rwa [hday, World.rolesOfDay_of_lookup hlookup]
  | unassign =>
      rw [resolvedDay, haction] at hservice
      obtain ⟨day, hday⟩ := Option.ne_none_iff_exists'.mp (hnew.2 haction)
      -- the recorded day is one that an earlier request named
      obtain ⟨row, hrow, hlast⟩ := Option.bind_eq_some_iff.mp hday
      obtain ⟨earlier, hmem, result, rfl⟩ := h.row row (hid ▸ hrow)
      obtain ⟨role, hlookup, hlive⟩ := hstart.daysLive earlier (hpast hmem) day hlast
      rw [← h.dayMap] at hlookup
      rw [hday] at hservice
      have hheld := (runs_applyDayRole_unassign hservice).held_of_ok hok
        (by simpa using hlookup) (h.liveRoles ▸ hlive) h.present
      rw [h.held, ← hid, hday, World.rolesOfDay_of_lookup hlookup, Set.sdiff_self] at hheld
      rwa [body.dayNumber_of_unassign haction, World.rolesOfDay_none]

/-- **Step lemma, a fresh request.**  It leaves its row and its roles. -/
theorem deliver_of_supersedes (hstart : FreshStart guildId w₀ discordId memberId deliveries)
    (h : Settled codec guildId w₀ discordId memberId past w) (hpast : past ⊆ deliveries)
    (hbody : body ∈ deliveries) (hnew : Supersedes w body) :
    Settled codec guildId w₀ discordId memberId (past ++ [body]) (deliver codec guildId w body) ∧
      ∃ result, (deliver codec guildId w body).states discordId =
        some (freshRow codec body result) := by
  have hid := hstart.oneMember body hbody
  have hnone : rowAnswer codec w body = none :=
    (rowAnswer_eq_none_iff h hid fun r hr => hstart.ordered r (hpast hr) body hbody).mpr
      fun row hrow => hnew.1 row (hid ▸ hrow)
  have hnumber : int body.discordId = some memberId := hid ▸ hstart.isNumber
  obtain ⟨trace, value, hruns, hok⟩ := runs_deliver codec guildId w body
  generalize deliver codec guildId w body = w' at hruns ⊢
  cases runs_roleSync hruns with
  | stored hanswer => simp [hnone] at hanswer
  | nothingRecorded _ haction hresolved =>
      rw [resolvedDay, haction] at hresolved
      exact absurd hresolved (hnew.2 haction)
  | notANumber _ hnot => simp [hnumber] at hnot
  | raised _ hnumber' _ hruns' =>
      obtain rfl := Option.some.inj (hnumber.symm.trans hnumber')
      obtain ⟨⟨result, hresult⟩, -⟩ := service_of_supersedes hstart h hpast hbody hnew hok hruns'
      simp at hresult
  | @written _ _ result w₁ _ hnumber' _ hruns' =>
      obtain rfl := Option.some.inj (hnumber.symm.trans hnumber')
      obtain ⟨-, hheld⟩ := service_of_supersedes hstart h hpast hbody hnew hok hruns'
      have hsame := runs_applyDayRole_sameTables hruns'
      have hrow : (w₁.upsert (freshRow codec body result)).states discordId =
          some (freshRow codec body result) := hid ▸ states_upsert_freshRow w₁ result
      refine ⟨⟨hsame.dayRoleMap.trans h.dayRoleMap, hsame.roles.trans h.liveRoles,
        hsame.forcePartial.trans h.forcePartial, hsame.present h.present, ?_, ?_⟩, result, hrow⟩
      · intro row hrow'
        obtain rfl := Option.some.inj (hrow'.symm.trans hrow)
        exact ⟨body, by simp, result, rfl⟩
      · rw [recordedDay, hrow]
        exact hheld.trans (hsame.rolesOfDay _).symm

/-- **Step lemma, any other request.**  It changes nothing. -/
theorem deliver_of_not_supersedes (hstart : FreshStart guildId w₀ discordId memberId deliveries)
    (h : Settled codec guildId w₀ discordId memberId past w) (hpast : past ⊆ deliveries)
    (hbody : body ∈ deliveries) (hold : ¬ Supersedes w body) :
    deliver codec guildId w body = w := by
  have hid := hstart.oneMember body hbody
  have hanswer := rowAnswer_eq_none_iff h hid fun r hr => hstart.ordered r (hpast hr) body hbody
  obtain ⟨trace, value, hruns, -⟩ := runs_deliver codec guildId w body
  cases hrow : rowAnswer codec w body with
  | some answer => exact ((runs_roleSync_of_rowAnswer hrow).mp hruns).2.2
  | none =>
      have hnewer := hanswer.mp hrow
      have hnothing : ¬ (body.action = .unassign → recordedDay w body.discordId ≠ none) :=
        fun hday => hold ⟨fun row hrow' => hnewer row (hid ▸ hrow'), hday⟩
      push Not at hnothing
      obtain ⟨haction, hday⟩ := hnothing
      have hresolved : resolvedDay w body = none := by
        rw [resolvedDay, haction]
        exact hday
      exact ((runs_roleSync_of_nothingRecorded hrow haction hresolved).mp hruns).2.2

/-- An assign that is not fresh found a row that is at least as new. -/
theorem exists_row_of_not_supersedes (hid : body.discordId = discordId)
    (haction : body.action = .assign) (hold : ¬ Supersedes w body) :
    ∃ row, w.states discordId = some row ∧ body.assignedAt ≤ row.lastAssignedAt := by
  rw [Supersedes, not_and_or] at hold
  rcases hold with hold | hold
  · push Not at hold
    obtain ⟨row, hrow, hle⟩ := hold
    exact ⟨row, hid ▸ hrow, hle⟩
  · simp [haction] at hold

/-- An assign that finds no newer row leaves its own. -/
theorem exists_row_of_deliver (hstart : FreshStart guildId w₀ discordId memberId deliveries)
    (h : Settled codec guildId w₀ discordId memberId past w) (hpast : past ⊆ deliveries)
    (hbody : body ∈ deliveries) (haction : body.action = .assign)
    (hbefore : ∀ row, w.states discordId = some row → row.lastAssignedAt ≤ body.assignedAt) :
    ∃ result, (deliver codec guildId w body).states discordId =
      some (freshRow codec body result) := by
  by_cases hnew : Supersedes w body
  · exact (deliver_of_supersedes hstart h hpast hbody hnew).2
  · -- the row of the same `assigned_at` is that of an earlier copy
    rw [deliver_of_not_supersedes hstart h hpast hbody hnew]
    obtain ⟨row, hrow, hle⟩ :=
      exists_row_of_not_supersedes (hstart.oneMember body hbody) haction hnew
    obtain ⟨earlier, hearlier, result, rfl⟩ := h.row row hrow
    have hsame : earlier = body := hstart.ordered earlier (hpast hearlier) body hbody
      (le_antisymm (hbefore _ hrow) hle)
    exact ⟨result, hsame ▸ hrow⟩

/-! ## All deliveries -/

theorem deliverAll_concat (w : World) (past : List RoleSyncRequest) (body : RoleSyncRequest) :
    deliverAll codec guildId w (past ++ [body]) =
      deliver codec guildId (deliverAll codec guildId w past) body := by
  simp [deliverAll]

/-- **Run lemma.**  The invariant holds after every prefix of the deliveries. -/
theorem settled_deliverAll (hstart : FreshStart guildId w₀ discordId memberId deliveries)
    (hpast : past ⊆ deliveries) :
    Settled codec guildId w₀ discordId memberId past (deliverAll codec guildId w₀ past) := by
  induction past using List.reverseRecOn with
  | nil => exact .initial hstart
  | append_singleton past body ih =>
      have hsub : past ⊆ deliveries := fun r hr => hpast (by simp [hr])
      have hbody : body ∈ deliveries := hpast (by simp)
      rw [deliverAll_concat]
      by_cases hnew : Supersedes (deliverAll codec guildId w₀ past) body
      · exact (deliver_of_supersedes hstart (ih hsub) hsub hbody hnew).1
      · rw [deliver_of_not_supersedes hstart (ih hsub) hsub hbody hnew]
        exact (ih hsub).mono (List.subset_append_left _ _)

/-- A delivered assign leaves its ordering token, or found a newer one. -/
theorem exists_row_of_assign (hstart : FreshStart guildId w₀ discordId memberId deliveries)
    (hpast : past ⊆ deliveries) {assign : RoleSyncRequest} (hmem : assign ∈ past)
    (haction : assign.action = .assign) :
    ∃ row, (deliverAll codec guildId w₀ past).states discordId = some row ∧
      assign.assignedAt ≤ row.lastAssignedAt := by
  induction past using List.reverseRecOn with
  | nil => simp at hmem
  | append_singleton past body ih =>
      have hsub : past ⊆ deliveries := fun r hr => hpast (by simp [hr])
      have hbody : body ∈ deliveries := hpast (by simp)
      have hid := hstart.oneMember body hbody
      have hsettled : Settled codec guildId w₀ discordId memberId past _ :=
        settled_deliverAll hstart hsub
      rw [deliverAll_concat]
      by_cases hnew : Supersedes (deliverAll codec guildId w₀ past) body
      · obtain ⟨-, result, hrow⟩ := deliver_of_supersedes hstart hsettled hsub hbody hnew
        refine ⟨_, hrow, ?_⟩
        rcases List.mem_append.mp hmem with hold | hlast
        · obtain ⟨row, hrow', hle⟩ := ih hsub hold
          exact hle.trans (hnew.1 row (hid ▸ hrow')).le
        · rw [List.mem_singleton.mp hlast]
          exact le_rfl
      · rw [deliver_of_not_supersedes hstart hsettled hsub hbody hnew]
        rcases List.mem_append.mp hmem with hold | hlast
        · exact ih hsub hold
        · obtain rfl := List.mem_singleton.mp hlast
          exact exists_row_of_not_supersedes hid haction hnew

/-- The row of an assign was written by a delivery of it that no later delivery
is newer than. -/
theorem exists_split_of_row (hstart : FreshStart guildId w₀ discordId memberId deliveries)
    (hpast : past ⊆ deliveries) {assign : RoleSyncRequest} {result : RoleSyncResult}
    (hmem : assign ∈ past) (haction : assign.action = .assign)
    (hrow : (deliverAll codec guildId w₀ past).states discordId =
      some (freshRow codec assign result)) :
    ∃ before after, past = before ++ assign :: after ∧
      (∀ row, (deliverAll codec guildId w₀ before).states discordId = some row →
        row.lastAssignedAt < assign.assignedAt) ∧
      ∀ body ∈ after, body.assignedAt ≤ assign.assignedAt := by
  induction past using List.reverseRecOn with
  | nil => simp at hmem
  | append_singleton past body ih =>
      have hsub : past ⊆ deliveries := fun r hr => hpast (by simp [hr])
      have hbody : body ∈ deliveries := hpast (by simp)
      have hid := hstart.oneMember body hbody
      have hsettled : Settled codec guildId w₀ discordId memberId past _ :=
        settled_deliverAll hstart hsub
      rw [deliverAll_concat] at hrow
      by_cases hnew : Supersedes (deliverAll codec guildId w₀ past) body
      · obtain ⟨-, result', hrow'⟩ := deliver_of_supersedes hstart hsettled hsub hbody hnew
        have htoken := congrArg MemberRoleSyncState.lastAssignedAt
          (Option.some.inj (hrow'.symm.trans hrow))
        obtain rfl := hstart.ordered body hbody assign (hpast hmem) htoken
        exact ⟨past, [], rfl, fun row h => hnew.1 row (hid ▸ h), by simp⟩
      · rw [deliver_of_not_supersedes hstart hsettled hsub hbody hnew] at hrow
        have hearlier : assign ∈ past := by
          obtain ⟨body', hmem', result', heq⟩ := hsettled.row _ hrow
          have htoken := congrArg MemberRoleSyncState.lastAssignedAt heq
          rwa [hstart.ordered assign (hpast hmem) body' (hsub hmem') htoken]
        obtain ⟨before, after, rfl, hbefore, hafter⟩ := ih hsub hearlier hrow
        refine ⟨before, after ++ [body], by simp, hbefore, fun later hlater => ?_⟩
        rcases List.mem_append.mp hlater with hlater | hlater
        · exact hafter later hlater
        · -- the row records a day, so only an old token can have stopped `body`
          obtain rfl := List.mem_singleton.mp hlater
          by_contra hlt
          refine hnew ⟨fun row hrow' => ?_, fun _ => ?_⟩
          · rw [hid, hrow, Option.some.injEq] at hrow'
            rw [← hrow']
            exact not_le.mp hlt
          · have hday := assign.dayNumberConditionality.mpr haction
            rw [recordedDay, hid, hrow, Option.bind_some]
            exact Option.isSome_iff_ne_none.mp hday

/-- Deliveries that are not newer than the recorded assign change nothing. -/
theorem deliverAll_append_of_le (hstart : FreshStart guildId w₀ discordId memberId deliveries)
    {before after : List RoleSyncRequest} {assign : RoleSyncRequest} {result : RoleSyncResult}
    (hsub : before ++ after ⊆ deliveries)
    (hrow : (deliverAll codec guildId w₀ before).states discordId =
      some (freshRow codec assign result))
    (hafter : ∀ body ∈ after, body.assignedAt ≤ assign.assignedAt) :
    deliverAll codec guildId w₀ (before ++ after) = deliverAll codec guildId w₀ before := by
  induction after using List.reverseRecOn with
  | nil => rw [List.append_nil]
  | append_singleton after body ih =>
      rw [← List.append_assoc] at hsub ⊢
      have hsub' : before ++ after ⊆ deliveries :=
        List.Subset.trans (List.subset_append_left _ _) hsub
      have hbody : body ∈ deliveries := hsub (by simp)
      have heq := ih hsub' fun later hlater => hafter later (by simp [hlater])
      rw [deliverAll_concat, deliver_of_not_supersedes hstart
        (settled_deliverAll hstart hsub') hsub' hbody, heq]
      intro hnew
      have hlt := hnew.1 (freshRow codec assign result)
        (by rw [heq, hstart.oneMember body hbody, hrow])
      exact absurd (hafter body (by simp)) (not_le.mpr hlt)

/-- The row of the assign that stays is the one that the deliveries end with. -/
theorem deliverAll_of_split (hstart : FreshStart guildId w₀ discordId memberId deliveries)
    {before after : List RoleSyncRequest} {assign : RoleSyncRequest}
    (heq : deliveries = before ++ assign :: after) (haction : assign.action = .assign)
    (hafter : ∀ body ∈ after, body.assignedAt ≤ assign.assignedAt)
    (hbefore : ∀ row, (deliverAll codec guildId w₀ before).states discordId = some row →
      row.lastAssignedAt ≤ assign.assignedAt) :
    ∃ result, (deliverAll codec guildId w₀ deliveries).states discordId =
      some (freshRow codec assign result) := by
  have hsplit : deliveries = before ++ [assign] ++ after := by simp [heq]
  have hsub : before ⊆ deliveries := heq ▸ List.subset_append_left _ _
  have hmem : assign ∈ deliveries := by simp [heq]
  obtain ⟨result, hrow⟩ : ∃ result, (deliverAll codec guildId w₀ (before ++ [assign])).states
      discordId = some (freshRow codec assign result) := by
    rw [deliverAll_concat]
    exact exists_row_of_deliver hstart (settled_deliverAll hstart hsub) hsub hmem haction hbefore
  have hend : deliverAll codec guildId w₀ deliveries =
      deliverAll codec guildId w₀ (before ++ [assign]) := by
    rw [hsplit]
    exact deliverAll_append_of_le hstart (by simp [hsplit]) hrow hafter
  exact ⟨result, hend ▸ hrow⟩

/-- **When a day role stays.**  Exactly when some assign is delivered, finds no
newer row, and nothing newer is delivered after it. -/
theorem held_nonempty_iff (hstart : FreshStart guildId w₀ discordId memberId deliveries) :
    ((deliverAll codec guildId w₀ deliveries).heldDayRoles guildId memberId).Nonempty ↔
      ∃ before assign after, deliveries = before ++ assign :: after ∧ assign.action = .assign ∧
        (∀ body ∈ after, body.assignedAt ≤ assign.assignedAt) ∧
        ∀ row, (deliverAll codec guildId w₀ before).states discordId = some row →
          row.lastAssignedAt ≤ assign.assignedAt := by
  have hsettled : Settled codec guildId w₀ discordId memberId deliveries _ :=
    settled_deliverAll hstart (List.Subset.refl deliveries)
  constructor
  · rintro ⟨role, hrole⟩
    rw [hsettled.held] at hrole
    obtain ⟨day, hday, -⟩ := hrole
    obtain ⟨row, hrow, hlast⟩ := Option.bind_eq_some_iff.mp hday
    obtain ⟨assign, hmem, result, rfl⟩ := hsettled.row row hrow
    have haction : assign.action = .assign :=
      assign.dayNumberConditionality.mp (Option.isSome_iff_exists.mpr ⟨day, hlast⟩)
    obtain ⟨before, after, heq, hbefore, hafter⟩ :=
      exists_split_of_row hstart (List.Subset.refl _) hmem haction hrow
    exact ⟨before, assign, after, heq, haction, hafter, fun row hrow => (hbefore row hrow).le⟩
  · rintro ⟨before, assign, after, heq, haction, hafter, hbefore⟩
    obtain ⟨result, hrow⟩ := deliverAll_of_split hstart heq haction hafter hbefore
    obtain ⟨day, hday⟩ := assign.exists_dayNumber haction
    obtain ⟨role, hlookup, -⟩ := hstart.daysLive assign (by simp [heq]) day hday
    refine ⟨role, ?_⟩
    rw [hsettled.held, hsettled.rolesOfDay, recordedDay, hrow]
    exact ⟨day, hday, hlookup⟩

/-- The newest request, when it is an assign, decides which role is held. -/
theorem held_of_newest_assign (hstart : FreshStart guildId w₀ discordId memberId deliveries)
    {newest : RoleSyncRequest} (hmem : newest ∈ deliveries)
    (hmax : ∀ body ∈ deliveries, body.assignedAt ≤ newest.assignedAt)
    (haction : newest.action = .assign) :
    (deliverAll codec guildId w₀ deliveries).heldDayRoles guildId memberId =
      w₀.rolesOfDay guildId newest.dayNumber := by
  have hsettled : Settled codec guildId w₀ discordId memberId deliveries _ :=
    settled_deliverAll hstart (List.Subset.refl deliveries)
  obtain ⟨row, hrow, hle⟩ : ∃ row, (deliverAll codec guildId w₀ deliveries).states discordId =
      some row ∧ newest.assignedAt ≤ row.lastAssignedAt :=
    exists_row_of_assign hstart (List.Subset.refl _) hmem haction
  obtain ⟨body, hbody, result, rfl⟩ := hsettled.row row hrow
  obtain rfl := hstart.ordered body hbody newest hmem (le_antisymm (hmax body hbody) hle)
  rw [hsettled.held, hsettled.rolesOfDay, recordedDay, hrow]
  rfl

/-- **When the last writer wins.**  The roles after the last delivery are those
of the newest request exactly if it is an assign, or every assign after which
nothing newer is delivered finds a newer row in the table. -/
theorem roleSync_converges_iff (hstart : FreshStart guildId w₀ discordId memberId deliveries)
    {newest : RoleSyncRequest} (hmem : newest ∈ deliveries)
    (hmax : ∀ body ∈ deliveries, body.assignedAt ≤ newest.assignedAt) :
    (deliverAll codec guildId w₀ deliveries).heldDayRoles guildId memberId =
        w₀.rolesOfDay guildId newest.dayNumber ↔
      newest.action = .assign ∨
        ∀ before assign after, deliveries = before ++ assign :: after →
          assign.action = .assign → (∀ body ∈ after, body.assignedAt ≤ assign.assignedAt) →
          ∃ row, (deliverAll codec guildId w₀ before).states discordId = some row ∧
            assign.assignedAt < row.lastAssignedAt := by
  cases haction : newest.action with
  | assign =>
      simp only [true_or, iff_true]
      exact held_of_newest_assign hstart hmem hmax haction
  | unassign =>
      rw [newest.dayNumber_of_unassign haction, World.rolesOfDay_none,
        ← Set.not_nonempty_iff_eq_empty, held_nonempty_iff hstart]
      simp only [reduceCtorEq, false_or]
      constructor
      · intro hnone before assign after heq hassign hafter
        by_contra hrow
        push Not at hrow
        exact hnone ⟨before, assign, after, heq, hassign, hafter, hrow⟩
      · rintro hall ⟨before, assign, after, heq, hassign, hafter, hrow⟩
        obtain ⟨row, hstored, hlt⟩ := hall before assign after heq hassign hafter
        exact absurd (hrow row hstored) (not_le.mpr hlt)

theorem smallGuild_freshStart {deliveries : List RoleSyncRequest}
    (hmember : ∀ body ∈ deliveries, body.discordId = "7")
    (hordered : ∀ r ∈ deliveries, ∀ s ∈ deliveries, r.assignedAt = s.assignedAt → r = s)
    (hdays : ∀ body ∈ deliveries, ∀ day, body.dayNumber = some day → day = 1 ∨ day = 2) :
    FreshStart 1 smallGuild "7" 7 deliveries where
  oneMember := hmember
  ordered := hordered
  isNumber := by decide
  noRow := rfl
  present := ⟨[], rfl⟩
  noDayRole := by
    ext role
    simp [World.heldDayRoles, smallGuild]
  daysLive := by
    intro body hbody day hday
    rcases hdays body hbody day hday with rfl | rfl
    · exact ⟨101, by decide, by decide⟩
    · exact ⟨102, by decide, by decide⟩
  notForced := by simp [smallGuild]

/-- The deliveries in order: an assign, then the unassign. -/
theorem roleSync_converges_in_order :
    (deliverAll intLists 1 smallGuild
        [assignRequest 1 "T1", unassignRequest "T2"]).heldDayRoles 1 7 =
      smallGuild.rolesOfDay 1 (unassignRequest "T2").dayNumber := by
  have hstart : FreshStart 1 smallGuild "7" 7 [assignRequest 1 "T1", unassignRequest "T2"] :=
    smallGuild_freshStart (by decide) (by decide) (by decide)
  refine (roleSync_converges_iff hstart (by simp) (by decide)).mpr (.inr ?_)
  intro before assign after heq hassign hafter
  rcases before with _ | ⟨_, _ | ⟨_, rest⟩⟩
  · -- the unassign after the assign is newer
    obtain ⟨rfl, rfl⟩ := List.cons.inj heq
    exact absurd (hafter _ (List.mem_singleton_self _)) (by decide)
  · obtain ⟨-, heq⟩ := List.cons.inj heq
    obtain ⟨rfl, -⟩ := List.cons.inj heq
    exact absurd hassign (by decide)
  · simp at heq

/-- **An unassign that leaves no token.**  The unassign at `T2` comes first and
is answered without a row; the assign at `T1`, which it should have overruled,
then counts as fresh and its role stays. -/
theorem roleSync_not_converges :
    FreshStart 1 smallGuild "7" 7 [unassignRequest "T2", assignRequest 1 "T1"] ∧
      (∀ body ∈ [unassignRequest "T2", assignRequest 1 "T1"],
        body.assignedAt ≤ (unassignRequest "T2").assignedAt) ∧
      (deliverAll intLists 1 smallGuild
        [unassignRequest "T2", assignRequest 1 "T1"]).heldDayRoles 1 7 ≠
          smallGuild.rolesOfDay 1 (unassignRequest "T2").dayNumber := by
  refine ⟨smallGuild_freshStart (by decide) (by decide) (by decide), by decide, fun heq => ?_⟩
  have hnone : smallGuild.rolesOfDay 1 (unassignRequest "T2").dayNumber = ∅ :=
    smallGuild.rolesOfDay_none
  rw [hnone] at heq
  have hheld : (101 : ℤ) ∈ (deliverAll intLists 1 smallGuild
      [unassignRequest "T2", assignRequest 1 "T1"]).heldDayRoles 1 7 :=
    ⟨by decide, [101], rfl, by decide⟩
  rw [heq] at hheld
  exact hheld

end MomBot.Sidecar
