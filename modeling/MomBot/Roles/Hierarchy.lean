import Mathlib.Data.Finset.Insert
import MomBot.Cooperative.Begun
import MomBot.Roles.Report
import MomBot.Roles.Seed

/-!
# `roles/service.py`: the two checks of the role hierarchy

Discord lets the bot change a role only where the bot's own top role ranks above it.
`runPreflight` looks at every mapped role once, and `maybeEmitHierarchyLoss` looks at one role after
Discord has refused to change it.  Both compare in the same way (`Outranks`).

`_hierarchy_loss_emitted` lives as long as the process does.  A `ServiceCall` is a call of
`apply_day_role`, with whatever it was answered; it reports a refusal of its target role, and never
one of another day's role (`mem_reports`).  Over all calls of a process a role is logged by the
first one that finds it outranking the bot, and by no other (`hierarchyLog_first`).
-/

namespace MomBot.Roles

open Cooperative Coroutine

/-! ## Ranks -/

/-- A role of a guild with its rank. -/
structure RankedRole extends LiveRole where
  position : ℤ
  deriving DecidableEq, Repr

/-- A guild as the client has it; `topPosition` is `guild.me.top_role.position`. -/
structure RankedGuild where
  id : ℤ
  roles : List RankedRole
  topPosition : ℤ
  deriving DecidableEq, Repr

namespace RankedGuild

/-- `guild.get_role`. -/
def getRole (guild : RankedGuild) (roleId : ℤ) : Option RankedRole :=
  guild.roles.find? fun role => role.id = roleId

/-- The live role of that id ranks at or above the bot. -/
def Outranks (guild : RankedGuild) (roleId : ℤ) : Prop :=
  ∃ role, guild.getRole roleId = some role ∧ guild.topPosition ≤ role.position

variable {guild : RankedGuild} {roleId : ℤ} {role : RankedRole}

theorem outranks_iff (h : guild.getRole roleId = some role) :
    guild.Outranks roleId ↔ guild.topPosition ≤ role.position := by
  simp [Outranks, h]

theorem not_outranks_of_missing (h : guild.getRole roleId = none) : ¬ guild.Outranks roleId := by
  simp [Outranks, h]

instance (guild : RankedGuild) (roleId : ℤ) : Decidable (guild.Outranks roleId) :=
  match h : guild.getRole roleId with
  | none => isFalse (not_outranks_of_missing h)
  | some role => decidable_of_iff (guild.topPosition ≤ role.position) (outranks_iff h).symm

end RankedGuild

/-! ## Preflight -/

/-- What `run_preflight` logs. -/
inductive PreflightRecord where
  | roleNotInGuild (guildId dayNumber roleId : ℤ)
  | misconfigured (guildId dayNumber roleId : ℤ) (roleName : String)
      (rolePosition botTopRolePosition : ℤ)
  | complete (guildId : ℤ) (total violations missing : ℕ)
  deriving DecidableEq, Repr

/-- The counters of the loop, and what it has logged. -/
structure Preflight where
  total : ℕ
  violations : ℕ
  missing : ℕ
  records : List PreflightRecord
  deriving DecidableEq, Repr

/-- A round of the loop over the map. -/
def preflightRound (guild : RankedGuild) (p : Preflight) (entry : ℤ × ℤ) : Preflight :=
  match guild.getRole entry.2 with
  | none =>
      { p with
        total := p.total + 1
        missing := p.missing + 1
        records := p.records ++ [.roleNotInGuild guild.id entry.1 entry.2] }
  | some role =>
      if role.position ≥ guild.topPosition then
        { p with
          total := p.total + 1
          violations := p.violations + 1
          records := p.records ++
            [.misconfigured guild.id entry.1 entry.2 role.name role.position guild.topPosition] }
      else { p with total := p.total + 1 }

/-- The text of the `ConfigError`. -/
def misconfiguredText (violations : ℕ) (guildId : ℤ) : String :=
  "ROLE_HIERARCHY_MISCONFIGURED: " ++ toString violations ++ " day role(s) are ranked " ++
    "at or above the bot's top role in guild " ++ toString guildId ++ ". " ++
    "Fix the Discord role hierarchy before restarting."

/-- `run_preflight` on the day-role map of the guild: its log records, and the `ConfigError`. -/
def runPreflight (guild : RankedGuild) (dayMap : List (ℤ × ℤ)) :
    List PreflightRecord × Except String Unit :=
  let p := dayMap.foldl (preflightRound guild) ⟨0, 0, 0, []⟩
  (p.records ++ [.complete guild.id p.total p.violations p.missing],
    if p.violations ≠ 0 then .error (misconfiguredText p.violations guild.id) else .ok ())

section Preflight

variable {guild : RankedGuild} {dayMap : List (ℤ × ℤ)}

/-- What the loop logs of one entry. -/
def preflightRecord (guild : RankedGuild) (entry : ℤ × ℤ) : Option PreflightRecord :=
  match guild.getRole entry.2 with
  | none => some (.roleNotInGuild guild.id entry.1 entry.2)
  | some role =>
      if guild.Outranks entry.2 then
        some (.misconfigured guild.id entry.1 entry.2 role.name role.position guild.topPosition)
      else none

/-- **Step lemma.**  A round counts its entry and logs it. -/
theorem preflightRound_eq (guild : RankedGuild) (p : Preflight) (entry : ℤ × ℤ) :
    preflightRound guild p entry =
      ⟨p.total + 1,
        p.violations + [entry].countP fun e => guild.Outranks e.2,
        p.missing + [entry].countP fun e => (guild.getRole e.2).isNone,
        p.records ++ (preflightRecord guild entry).toList⟩ := by
  unfold preflightRound preflightRecord
  cases hrole : guild.getRole entry.2 with
  | none =>
      have hmissing := RankedGuild.not_outranks_of_missing hrole
      simp [hrole, hmissing]
  | some role =>
      have houtranks := RankedGuild.outranks_iff hrole
      by_cases hrank : guild.topPosition ≤ role.position
      · simp [hrole, houtranks, hrank]
      · simp [hrole, houtranks, hrank]

/-- **Run lemma.**  The loop counts the map, and logs the entries that are not in order. -/
theorem foldl_preflightRound (p : Preflight) :
    dayMap.foldl (preflightRound guild) p =
      ⟨p.total + dayMap.length,
        p.violations + dayMap.countP fun e => guild.Outranks e.2,
        p.missing + dayMap.countP fun e => (guild.getRole e.2).isNone,
        p.records ++ dayMap.filterMap (preflightRecord guild)⟩ := by
  induction dayMap generalizing p with
  | nil => simp
  | cons entry rest ih =>
      rw [List.foldl_cons, ih, preflightRound_eq]
      have htotal : p.total + 1 + rest.length = p.total + (entry :: rest).length := by
        rw [List.length_cons]
        omega
      have hcount : ∀ (q : ℤ × ℤ → Bool) (n : ℕ),
          n + [entry].countP q + rest.countP q = n + (entry :: rest).countP q := by
        intro q n
        rw [Nat.add_assoc, ← List.countP_append]
        rfl
      have hrecords : p.records ++ (preflightRecord guild entry).toList ++
          rest.filterMap (preflightRecord guild) =
            p.records ++ (entry :: rest).filterMap (preflightRecord guild) := by
        rw [List.append_assoc, List.filterMap_cons]
        cases preflightRecord guild entry <;> rfl
      simp only [htotal, hcount, hrecords]

/-- The preflight passes exactly where no mapped role outranks the bot. -/
theorem runPreflight_ok_iff :
    (runPreflight guild dayMap).2 = .ok () ↔ ∀ entry ∈ dayMap, ¬ guild.Outranks entry.2 := by
  have hnone : (∀ entry ∈ dayMap, ¬ guild.Outranks entry.2) ↔
      (dayMap.countP fun e => guild.Outranks e.2) = 0 := by
    simp [List.countP_eq_zero]
  simp only [runPreflight, foldl_preflightRound, Nat.zero_add]
  rw [hnone]
  split
  next hviolations => exact iff_of_false (by simp) hviolations
  next hclean => exact iff_of_true rfl (not_not.mp hclean)

end Preflight

/-! ## Refusals -/

/-- The arguments of `_maybe_emit_hierarchy_loss`: the role that Discord refused to change, and the
guild as it was then. -/
structure Refusal where
  guild : RankedGuild
  roleId : ℤ
  discordId : ℤ
  correlationId : String
  deriving DecidableEq, Repr

/-- `ROLE_HIERARCHY_LOST_AT_RUNTIME`. -/
structure HierarchyLost where
  correlationId : String
  discordId : ℤ
  roleId : ℤ
  rolePosition : ℤ
  botTopRolePosition : ℤ
  deriving DecidableEq, Repr

/-- `_maybe_emit_hierarchy_loss`; `emitted` is `_hierarchy_loss_emitted`. -/
def maybeEmitHierarchyLoss (emitted : Finset ℤ) (refusal : Refusal) :
    Finset ℤ × Option HierarchyLost :=
  if refusal.roleId ∈ emitted then (emitted, none)
  else
    match refusal.guild.getRole refusal.roleId with
    | none => (emitted, none)
    | some role =>
        if role.position ≥ refusal.guild.topPosition then
          (insert refusal.roleId emitted,
            some ⟨refusal.correlationId, refusal.discordId, refusal.roleId, role.position,
              refusal.guild.topPosition⟩)
        else (emitted, none)

/-- One more refusal, with the log so far. -/
def reportRefusal (s : Finset ℤ × List HierarchyLost) (refusal : Refusal) :
    Finset ℤ × List HierarchyLost :=
  ((maybeEmitHierarchyLoss s.1 refusal).1, s.2 ++ (maybeEmitHierarchyLoss s.1 refusal).2.toList)

/-- `_hierarchy_loss_emitted` after the refusals of a process, and what the process has logged. -/
def reportRefusals (refusals : List Refusal) : Finset ℤ × List HierarchyLost :=
  refusals.foldl reportRefusal (∅, [])

/-- The role outranked the bot when it was refused. -/
def Refusal.Lost (refusal : Refusal) : Prop := refusal.guild.Outranks refusal.roleId

/-- The record is about this refusal. -/
def HierarchyLost.About (refusal : Refusal) (record : HierarchyLost) : Prop :=
  record.correlationId = refusal.correlationId ∧ record.discordId = refusal.discordId ∧
    record.roleId = refusal.roleId ∧ record.botTopRolePosition = refusal.guild.topPosition ∧
    ∃ role, refusal.guild.getRole refusal.roleId = some role ∧
      record.rolePosition = role.position ∧ refusal.guild.topPosition ≤ role.position

section Refusals

variable {emitted : Finset ℤ} {refusal : Refusal} {refusals before : List Refusal}
  {record : HierarchyLost}

/-- What a refusal does: it reports its role and remembers it, or it does nothing. -/
inductive Emission (emitted : Finset ℤ) (refusal : Refusal) :
    Finset ℤ × Option HierarchyLost → Prop
  | lost {record : HierarchyLost} : refusal.roleId ∉ emitted → record.About refusal →
      Emission emitted refusal (insert refusal.roleId emitted, some record)
  | quiet : refusal.roleId ∈ emitted ∨ ¬ refusal.Lost →
      Emission emitted refusal (emitted, none)

theorem maybeEmitHierarchyLoss_emission (emitted : Finset ℤ) (refusal : Refusal) :
    Emission emitted refusal (maybeEmitHierarchyLoss emitted refusal) := by
  unfold maybeEmitHierarchyLoss
  split
  next hseen => exact .quiet (.inl hseen)
  next hnew =>
    cases hrole : refusal.guild.getRole refusal.roleId with
    | none => exact .quiet (.inr (RankedGuild.not_outranks_of_missing hrole))
    | some role =>
        have houtranks := RankedGuild.outranks_iff hrole
        by_cases hrank : refusal.guild.topPosition ≤ role.position
        · simp only [ge_iff_le, hrank, if_true]
          exact .lost hnew ⟨rfl, rfl, rfl, rfl, role, hrole, rfl, hrank⟩
        · simp only [ge_iff_le, hrank, if_false]
          exact .quiet (.inr fun hlost => hrank (houtranks.mp hlost))

theorem HierarchyLost.About.lost (h : record.About refusal) : refusal.Lost := by
  obtain ⟨-, -, -, -, role, hrole, -, hrank⟩ := h
  exact ⟨role, hrole, hrank⟩

/-- There is nothing more to a record than what it is about. -/
theorem HierarchyLost.About.unique {other : HierarchyLost} (h : record.About refusal)
    (hother : other.About refusal) : record = other := by
  obtain ⟨hcorrelation, hmember, hrole, htop, role, hlive, hposition, -⟩ := h
  obtain ⟨hcorrelation', hmember', hrole', htop', role', hlive', hposition', -⟩ := hother
  obtain rfl := Option.some.inj (hlive.symm.trans hlive')
  cases record
  cases other
  simp_all

theorem reportRefusals_concat :
    reportRefusals (before ++ [refusal]) = reportRefusal (reportRefusals before) refusal := by
  rw [reportRefusals, List.foldl_append]
  rfl

/-- **Run lemma.**  The remembered roles are those that were found outranking the bot. -/
theorem mem_reportRefusals {roleId : ℤ} :
    roleId ∈ (reportRefusals refusals).1 ↔
      ∃ refusal ∈ refusals, refusal.roleId = roleId ∧ refusal.Lost := by
  induction refusals using List.reverseRecOn with
  | nil => simp [reportRefusals]
  | append_singleton before refusal ih =>
      have hconcat : (∃ earlier ∈ before ++ [refusal], earlier.roleId = roleId ∧ earlier.Lost) ↔
          (∃ earlier ∈ before, earlier.roleId = roleId ∧ earlier.Lost) ∨
            refusal.roleId = roleId ∧ refusal.Lost := by
        simp [or_and_right, exists_or]
      rw [reportRefusals_concat, reportRefusal, hconcat, ← ih]
      have hstep := maybeEmitHierarchyLoss_emission (reportRefusals before).1 refusal
      generalize maybeEmitHierarchyLoss (reportRefusals before).1 refusal = result at hstep ⊢
      cases hstep with
      | @lost record _ habout =>
          rw [Finset.mem_insert, or_comm]
          simp [habout.lost, eq_comm]
      | quiet hquiet =>
          refine ⟨Or.inl, fun h => h.elim id fun hnew => ?_⟩
          exact hquiet.elim (fun hseen => hnew.1 ▸ hseen) fun hfine => absurd hnew.2 hfine

/-- The refusal found its role outranking the bot, and no earlier one of that role did. -/
def FirstLost (before : List Refusal) (refusal : Refusal) : Prop :=
  refusal.Lost ∧ ∀ earlier ∈ before, earlier.roleId = refusal.roleId → ¬ earlier.Lost

theorem notMem_reportRefusals (h : FirstLost before refusal) :
    refusal.roleId ∉ (reportRefusals before).1 := by
  rw [mem_reportRefusals]
  intro hseen
  obtain ⟨earlier, hmem, hrole, hlost⟩ := hseen
  exact h.2 earlier hmem hrole hlost

/-- **Step lemma.**  What one more refusal adds to the log. -/
theorem mem_emission_iff :
    record ∈ (maybeEmitHierarchyLoss (reportRefusals before).1 refusal).2.toList ↔
      FirstLost before refusal ∧ record.About refusal := by
  have hstep := maybeEmitHierarchyLoss_emission (reportRefusals before).1 refusal
  generalize maybeEmitHierarchyLoss (reportRefusals before).1 refusal = result at hstep ⊢
  cases hstep with
  | @lost reported hnew habout =>
      have hfirst : FirstLost before refusal := by
        refine ⟨habout.lost, fun earlier hmem hrole hlost => hnew ?_⟩
        exact mem_reportRefusals.mpr ⟨earlier, hmem, hrole, hlost⟩
      rw [Option.toList_some, List.mem_singleton]
      constructor
      · intro h
        subst h
        exact ⟨hfirst, habout⟩
      · intro h
        exact h.2.unique habout
  | quiet hquiet =>
      rw [Option.toList_none]
      refine iff_of_false List.not_mem_nil fun h => ?_
      exact hquiet.elim (notMem_reportRefusals h.1) fun hfine => hfine h.1.1

/-- **Run lemma.**  The log holds one record for each role that a refusal found outranking the bot,
about the first such refusal of it, and nothing else. -/
theorem reportRefusals_first (refusals : List Refusal) :
    ((reportRefusals refusals).2.map HierarchyLost.roleId).Nodup ∧
      ∀ record, record ∈ (reportRefusals refusals).2 ↔
        ∃ before refusal after, refusals = before ++ refusal :: after ∧
          FirstLost before refusal ∧ record.About refusal := by
  induction refusals using List.reverseRecOn with
  | nil =>
      refine ⟨List.nodup_nil, fun record => iff_of_false List.not_mem_nil fun h => ?_⟩
      obtain ⟨before, refusal, after, hsplit, -⟩ := h
      exact absurd hsplit (by simp)
  | append_singleton before refusal ih =>
      obtain ⟨hnodup, hlog⟩ := ih
      rw [reportRefusals_concat, reportRefusal]
      constructor
      · rw [List.map_append]
        refine hnodup.append ?_ fun roleId hold hnew => ?_
        · cases (maybeEmitHierarchyLoss (reportRefusals before).1 refusal).2 <;> simp
        · -- a role that was reported before is one of an earlier refusal
          obtain ⟨record, hrecord, rfl⟩ := List.mem_map.mp hnew
          obtain ⟨hfirst, habout⟩ := mem_emission_iff.mp hrecord
          obtain ⟨reported, hreported, hsame⟩ := List.mem_map.mp hold
          obtain ⟨early, earlier, late, rfl, hlost, hearlier⟩ := (hlog reported).mp hreported
          refine hfirst.2 earlier (by simp) ?_ hlost.1
          exact hearlier.2.2.1.symm.trans (hsame.trans habout.2.2.1)
      · intro record
        rw [List.mem_append, hlog, mem_emission_iff]
        constructor
        · intro h
          rcases h with ⟨early, earlier, late, rfl, hfirst⟩ | hfirst
          · exact ⟨early, earlier, late ++ [refusal], by simp, hfirst⟩
          · exact ⟨before, refusal, [], rfl, hfirst⟩
        · intro h
          obtain ⟨early, earlier, late, hsplit, hfirst⟩ := h
          cases late using List.reverseRecOn with
          | nil =>
              obtain ⟨rfl, hlast⟩ := List.append_inj' hsplit rfl
              obtain rfl := (List.cons.inj hlast).1
              exact .inr hfirst
          | append_singleton late last _ =>
              rw [← List.cons_append, ← List.append_assoc] at hsplit
              exact .inl ⟨early, earlier, late, (List.append_inj' hsplit rfl).1, hfirst⟩

end Refusals

/-! ## The calls of a process -/

/-- The role that a turn of `apply_day_role` reports: where `_handle_assign` may not add its role
and where `_handle_unassign` may not remove it.  That another day's role may not be removed is only
a warning. -/
def reportedRole : Action → Turn RoleEffects → Option ℤ
  | .assign, .await (.addRoles _ roleId) (.error .forbidden) => some roleId
  | .unassign, .await (.removeRoles _ roleId) (.error .forbidden) => some roleId
  | _, _ => none

/-- A call of `apply_day_role` that has ended, and the guild as the client had it then. -/
structure ServiceCall where
  guild : RankedGuild
  discordId : ℤ
  action : Action
  dayNumber : Option ℤ
  correlationId : String
  turns : List (Turn RoleEffects)
  value : Except PyError RoleSyncResult
  dialogue : (applyDayRole guild.id discordId action dayNumber).Dialogue turns value

namespace ServiceCall

/-- The refusal of a role in a call. -/
def refusal (call : ServiceCall) (roleId : ℤ) : Refusal :=
  ⟨call.guild, roleId, call.discordId, call.correlationId⟩

/-- What the call passes to `_maybe_emit_hierarchy_loss`. -/
def reports (call : ServiceCall) : List Refusal :=
  (call.turns.filterMap (reportedRole call.action)).map call.refusal

/-- Discord refused to give the role that the call assigns, or to take the one that it unassigns. -/
def Refused (call : ServiceCall) (roleId : ℤ) : Prop :=
  .await (targetCall call.action call.discordId roleId) (.error .forbidden) ∈ call.turns

/-- The refused role outranked the bot. -/
def Lost (call : ServiceCall) (roleId : ℤ) : Prop :=
  call.Refused roleId ∧ call.guild.Outranks roleId

end ServiceCall

/-- What the process has logged; the calls are in the order in which they ended. -/
def hierarchyLog (calls : List ServiceCall) : List HierarchyLost :=
  (reportRefusals (calls.flatMap ServiceCall.reports)).2

section Calls

variable {discordId : ℤ} {turns : List (Turn RoleEffects)} {value : Except PyError RoleSyncResult}
  {call : ServiceCall}

theorem reportedRole_eq_some {action : Action} {turn : Turn RoleEffects} {roleId : ℤ} :
    reportedRole action turn = some roleId ↔
      ∃ discordId, turn = .await (targetCall action discordId roleId) (.error .forbidden) := by
  constructor
  · intro h
    unfold reportedRole at h
    split at h
    · exact ⟨_, by rw [Option.some.inj h]; rfl⟩
    · exact ⟨_, by rw [Option.some.inj h]; rfl⟩
    · cases h
  · rintro ⟨discordId, rfl⟩
    cases action <;> rfl

namespace ServiceCall

/-- A call reports the refusals of its target role, and no other. -/
theorem mem_reports {refusal : Refusal} :
    refusal ∈ call.reports ↔ ∃ roleId, call.Refused roleId ∧ call.refusal roleId = refusal := by
  have hturn : ∀ roleId, (∃ turn ∈ call.turns, reportedRole call.action turn = some roleId) ↔
      call.Refused roleId := by
    intro roleId
    constructor
    · intro h
      obtain ⟨turn, hmem, hreported⟩ := h
      obtain ⟨discordId, rfl⟩ := reportedRole_eq_some.mp hreported
      -- every change of a role is one of this member's
      have huses : (applyDayRole call.guild.id call.discordId call.action call.dayNumber).Uses
          (fun _ => True) fun asked => ∃ roleId, asked = RoleCall.addRoles call.discordId roleId ∨
            asked = RoleCall.removeRoles call.discordId roleId :=
        uses_applyDayRole ⟨by simp, by simp, by simp, by simp, by simp, by simp⟩ ..
      obtain ⟨_, hcall⟩ := call.dialogue.begins.permitted huses _ hmem
      obtain rfl : discordId = call.discordId := by
        cases haction : call.action <;> simp_all [targetCall]
      exact hmem
    · intro h
      exact ⟨_, h, reportedRole_eq_some.mpr ⟨_, rfl⟩⟩
  simp only [reports, List.mem_map, List.mem_filterMap, hturn]

theorem refusal_mem_reports {roleId : ℤ} (h : call.Refused roleId) :
    call.refusal roleId ∈ call.reports :=
  mem_reports.mpr ⟨roleId, h, rfl⟩

end ServiceCall

/-- Where a list of lists is cut at an entry, it is cut inside one of the lists. -/
theorem exists_split_of_flatMap {α β : Type} {f : α → List β} {items : List α} {x : β}
    {before after : List β} (h : items.flatMap f = before ++ x :: after) :
    ∃ earlier item later first rest, items = earlier ++ item :: later ∧
      f item = first ++ x :: rest ∧ before = earlier.flatMap f ++ first := by
  induction items generalizing before with
  | nil => exact absurd h (by simp)
  | cons item items ih =>
      rw [List.flatMap_cons] at h
      rcases List.append_eq_append_iff.mp h with ⟨late, rfl, hitems⟩ | ⟨late, hitem, hrest⟩
      · obtain ⟨earlier, item', later, first, rest, rfl, hfirst, rfl⟩ := ih hitems
        exact ⟨item :: earlier, item', later, first, rest, rfl, hfirst, by simp⟩
      · cases late with
        | nil =>
            obtain ⟨earlier, item', later, first, rest, rfl, hfirst, hbefore⟩ :=
              @ih [] (by simpa using hrest.symm)
            refine ⟨item :: earlier, item', later, first, rest, rfl, hfirst, ?_⟩
            rw [List.flatMap_cons, List.append_assoc, ← hbefore, hitem, List.append_nil,
              List.append_nil]
        | cons y late =>
            obtain ⟨rfl, -⟩ := List.cons.inj hrest
            exact ⟨[], item, items, before, late, rfl, hitem, rfl⟩

/-- The log of a process holds one record for each role that a call found outranking the bot when it
might not change it, about the first such call, and nothing else. -/
theorem hierarchyLog_first (calls : List ServiceCall) :
    ((hierarchyLog calls).map HierarchyLost.roleId).Nodup ∧
      ∀ record, record ∈ hierarchyLog calls ↔
        ∃ before call after roleId, calls = before ++ call :: after ∧ call.Lost roleId ∧
          (∀ earlier ∈ before, ¬ earlier.Lost roleId) ∧ record.About (call.refusal roleId) := by
  obtain ⟨hnodup, hlog⟩ := reportRefusals_first (calls.flatMap ServiceCall.reports)
  refine ⟨hnodup, fun record => ?_⟩
  rw [hierarchyLog, hlog]
  constructor
  · intro h
    obtain ⟨_, refusal, _, hsplit, ⟨hlost, hnone⟩, habout⟩ := h
    obtain ⟨before, call, after, first, rest, rfl, hcall, rfl⟩ := exists_split_of_flatMap hsplit
    obtain ⟨roleId, hrefused, rfl⟩ :=
      ServiceCall.mem_reports.mp (hcall ▸ List.mem_append_right first List.mem_cons_self)
    refine ⟨before, call, after, roleId, rfl, ⟨hrefused, hlost⟩, fun earlier hmem hearlier => ?_,
      habout⟩
    have hreported : earlier.refusal roleId ∈ before.flatMap ServiceCall.reports :=
      List.mem_flatMap.mpr ⟨earlier, hmem, ServiceCall.refusal_mem_reports hearlier.1⟩
    exact hnone _ (List.mem_append_left first hreported) rfl hearlier.2
  · intro h
    obtain ⟨before, call, after, roleId, rfl, ⟨hrefused, hlost⟩, hnone, habout⟩ := h
    obtain ⟨first, rest, hcall, hnew⟩ :=
      List.eq_append_cons_of_mem (ServiceCall.refusal_mem_reports hrefused)
    refine ⟨before.flatMap ServiceCall.reports ++ first, call.refusal roleId,
      rest ++ after.flatMap ServiceCall.reports, by simp [hcall], ⟨hlost, ?_⟩, habout⟩
    intro refusal hmem hrole
    rcases List.mem_append.mp hmem with hearlier | hfirst
    · obtain ⟨earlier, hbefore, hreported⟩ := List.mem_flatMap.mp hearlier
      obtain ⟨_, hrefused', rfl⟩ := ServiceCall.mem_reports.mp hreported
      obtain rfl := hrole
      exact fun hlost' => hnone earlier hbefore ⟨hrefused', hlost'⟩
    · -- all that a call reports of one role is the same
      have hreported : refusal ∈ call.reports := hcall ▸ List.mem_append_left _ hfirst
      obtain ⟨_, -, rfl⟩ := ServiceCall.mem_reports.mp hreported
      obtain rfl := hrole
      exact absurd hfirst hnew

end Calls

/-- Day 1 is assigned where the bot may neither take the role of day 2 nor give that of day 1. -/
def refusedAssign : ServiceCall where
  guild := ⟨1, [⟨⟨101, "Siege - Day 1 Attacker"⟩, 9⟩, ⟨⟨102, "Siege - Day 2 Attacker"⟩, 9⟩], 8⟩
  discordId := 7
  action := .assign
  dayNumber := some 1
  correlationId := "c"
  turns := [.op (.selectDayRoleMap 1) [⟨1, 1, 101⟩, ⟨1, 2, 102⟩], .op (.getRole 101) true,
    .op (.getMember 7) (some [102]), .op .environForcePartial none,
    .await (.removeRoles 7 102) (.error .forbidden), .await (.addRoles 7 101) (.error .forbidden)]
  value := .ok ⟨.failed, [], [], none⟩
  dialogue := ⟨_, _, rfl, _, _, rfl, _, _, rfl, _, _, rfl, _, _, rfl, _, _, rfl, rfl, rfl⟩

example : hierarchyLog [refusedAssign, refusedAssign] = [⟨"c", 7, 101, 9, 8⟩] := by decide

end MomBot.Roles
