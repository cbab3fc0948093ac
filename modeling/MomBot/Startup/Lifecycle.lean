import MomBot.Cooperative.Keeping
import MomBot.Startup.Stages

/-!
# One sidecar, one preflight, one set of sweeps

Discord dispatches `on_ready` as often as it likes, also while `close` drains the sidecar, and the
servers end on their own.

* At most one server runs, and both references of the client point at it; `close` awaits a server
  only after it has told that server to exit; the sweeps run only below the reminder scheduler
  (`reachable_oneSidecar`).
* Once `close` has drained, no server runs that was there when it looked (`drained_of_leads`).
* The preflight is repeated until it has passed, also where the database fails it, and no longer
  (`reachable_preflight`).
-/

namespace MomBot.Startup

open Cooperative Coroutine
open Roles (RankedGuild)

variable {w w' : Bot} {t : Stage} {x : Routine}

/-! ## What the stages mean -/

/-- What a routine in this stage has found out, as far as it still holds. -/
def Stage.Means : Stage → Bot → Prop
  | unchecked, w => w.preflightDone = false
  | clear, w => ∀ k, ¬ w.Running k
  | signalled, w => ∀ k, k + 1 = w.servers.length → w.Told k
  | draining task, w => task < w.servers.length ∧ w.Told task ∧ ∀ k < task, ¬ w.Running k
  | drained count, w => count ≤ w.servers.length ∧ ∀ k < count, ¬ w.Running k
  | waking, w => w.remindersBegun = false
  | preparing, w | sweeping, w => w.remindersBegun = true
  | rest, _ | working, _ | passed, _ => True

/-- The references of the client are to the newest server, and no other runs. -/
structure Sane (w : Bot) : Prop where
  server_eq : w.sidecarServer = w.sidecarTask
  newest : ∀ k, w.sidecarTask = some k ↔ k + 1 = w.servers.length
  only : ∀ k, w.Running k → k + 1 = w.servers.length

/-- What nothing takes back. -/
structure Later (w w' : Bot) : Prop where
  servers : w.servers.length ≤ w'.servers.length
  running : ∀ k < w.servers.length, w'.Running k → w.Running k
  told : ∀ k, w.Told k → w'.Told k
  begun : w.remindersBegun = true → w'.remindersBegun = true

/-- The preflight read its map and found no violation. -/
def PreflightRun.Clean (run : PreflightRun) : Prop :=
  ∃ dayMap, run.dayMap = some dayMap ∧ ∀ entry ∈ dayMap, ¬ run.guild.Outranks entry.2

/-- The preflights so far: each failed, but the last one if the matter is settled. -/
structure Once (runs : List PreflightRun) (settled : Prop) : Prop where
  passed : settled → ∃ before last, runs = before ++ [last] ∧ last.Clean ∧
    ∀ run ∈ before, ¬ run.Clean
  open_ : ¬ settled → ∀ run ∈ runs, ¬ run.Clean

theorem Later.refl (w : Bot) : Later w w :=
  ⟨le_refl _, fun _ _ h => h, fun _ h => h, id⟩

/-- Where nothing is to be awaited, no other routine can spoil what was found out. -/
theorem Stage.Means.later (h : t.Means w) (hcold : t.isHot = false) (hlater : Later w w') :
    t.Means w' := by
  cases t with
  | rest => trivial
  | working => trivial
  | unchecked => cases hcold
  | passed => cases hcold
  | clear => cases hcold
  | signalled => cases hcold
  | waking => cases hcold
  | draining task =>
      obtain ⟨hlt, htold, hdone⟩ := h
      refine ⟨hlt.trans_le hlater.servers, hlater.told task htold, fun k hk hrunning => ?_⟩
      exact hdone k hk (hlater.running k (hk.trans hlt) hrunning)
  | drained count =>
      obtain ⟨hle, hdone⟩ := h
      refine ⟨hle.trans hlater.servers, fun k hk hrunning => ?_⟩
      exact hdone k hk (hlater.running k (hk.trans_le hle) hrunning)
  | preparing => exact hlater.begun h
  | sweeping => exact hlater.begun h

/-! ## What the operations do -/

section Servers

variable {k : ℕ}

theorem lt_of_running (h : w.Running k) : k < w.servers.length := by
  by_contra hge
  rw [Bot.Running, List.getElem?_eq_none (not_lt.mp hge)] at h
  cases h

/-- A new server runs; the others are as before. -/
theorem running_serve (w : Bot) :
    (Bot.exec .serve w).2.Running k ↔ k = w.servers.length ∨ w.Running k := by
  simp only [Bot.exec, Bot.Running]
  rcases lt_trichotomy k w.servers.length with hlt | heq | hgt
  · rw [List.getElem?_append_left hlt]
    simp [hlt.ne]
  · subst heq
    simp
  · rw [List.getElem?_eq_none (by simp; omega), List.getElem?_eq_none hgt.le]
    simp [hgt.ne']

theorem told_serve (h : w.Told k) : (Bot.exec .serve w).2.Told k := by
  have hlt : k < w.servers.length := by
    by_contra hge
    rw [Bot.Told, List.getElem?_eq_none (not_lt.mp hge)] at h
    cases h
  rw [Bot.Told, Bot.exec, List.getElem?_append_left hlt]
  exact h

theorem length_signalExit (w : Bot) :
    (Bot.exec .signalExit w).2.servers.length = w.servers.length := by
  simp only [Bot.exec]
  cases w.sidecarServer <;> simp

theorem running_signalExit (w : Bot) : (Bot.exec .signalExit w).2.Running k ↔ w.Running k := by
  simp only [Bot.exec, Bot.Running]
  cases w.sidecarServer with
  | none => exact Iff.rfl
  | some server =>
      rw [Option.elim_some, List.getElem?_modify]
      cases w.servers[k]? <;> by_cases hk : server = k <;> simp [hk]

theorem told_signalExit (w : Bot) :
    (Bot.exec .signalExit w).2.Told k ↔
      w.Told k ∨ w.sidecarServer = some k ∧ k < w.servers.length := by
  simp only [Bot.exec, Bot.Told]
  cases w.sidecarServer with
  | none => simp
  | some server =>
      rw [Option.elim_some, List.getElem?_modify]
      rcases lt_or_ge k w.servers.length with hlt | hge
      · rw [List.getElem?_eq_getElem hlt]
        by_cases hk : server = k <;> simp [hk, hlt]
      · rw [List.getElem?_eq_none hge]
        simp [hge]

end Servers

section Exec

variable {o : BotOp}

theorem later_exec (o : BotOp) (w : Bot) : Later w (Bot.exec o w).2 := by
  cases o with
  | serve =>
      refine ⟨by simp [Bot.exec], fun k hk hrunning => ?_, fun k => told_serve, id⟩
      exact ((running_serve w).mp hrunning).resolve_left hk.ne
  | signalExit =>
      refine ⟨(length_signalExit w).ge, fun k _ => (running_signalExit w).mp, fun k htold => ?_, id⟩
      exact (told_signalExit w).mpr (.inl htold)
  | beginReminders => exact ⟨le_refl _, fun _ _ h => h, fun _ h => h, fun _ => rfl⟩
  | _ => exact ⟨le_refl _, fun _ _ h => h, fun _ h => h, id⟩

theorem sane_exec (h : Sane w) (ht : t.Means w) (hask : MayAsk x t o) :
    Sane (Bot.exec o w).2 := by
  cases hask with
  | serve =>
      refine ⟨rfl, fun k => ?_, fun k hrunning => ?_⟩
      · simp [Bot.exec, eq_comm]
      · have hnew := ((running_serve w).mp hrunning).resolve_right (ht k)
        simp [Bot.exec, hnew]
  | signalExit =>
      refine ⟨h.server_eq, fun k => ?_, fun k hrunning => ?_⟩
      · rw [length_signalExit]
        exact h.newest k
      · rw [length_signalExit]
        exact h.only k ((running_signalExit w).mp hrunning)
  | _ => exact ⟨h.server_eq, h.newest, h.only⟩

/-- A look at `_sidecar_task` tells whether any server runs. -/
theorem not_running_of_done (h : Sane w) (hdone : ∀ task, w.seenTask ≠ some ⟨task, false⟩) (k : ℕ) :
    ¬ w.Running k := by
  intro hrunning
  have htask := (h.newest k).mpr (h.only k hrunning)
  exact hdone k (by simp [Bot.seenTask, htask, hrunning])

theorem seenTask_eq_some (h : Sane w) {task : ℕ} {done : Bool}
    (hseen : w.seenTask = some ⟨task, done⟩) : task + 1 = w.servers.length := by
  obtain ⟨k, htask, hk⟩ := Option.map_eq_some_iff.mp hseen
  rw [(SeenTask.mk.inj hk).1] at htask
  exact (h.newest task).mp htask

theorem means_afterLook (h : Sane w) (ht : t = .working ∨ t = .unchecked) :
    (t.afterLook w.seenTask).Means w := by
  have hnone : (∀ task, w.seenTask ≠ some ⟨task, false⟩) → Stage.clear.Means w :=
    not_running_of_done h
  match hseen : w.seenTask with
  | some ⟨task, false⟩ => obtain rfl | rfl := ht <;> trivial
  | some ⟨task, true⟩ =>
      have hclear := hnone (by simp [hseen])
      obtain rfl | rfl := ht <;> exact hclear
  | none =>
      have hclear := hnone (by simp [hseen])
      obtain rfl | rfl := ht <;> exact hclear

theorem means_afterLook_signalled (h : Sane w) (ht : Stage.signalled.Means w) :
    (Stage.signalled.afterLook w.seenTask).Means w := by
  match hseen : w.seenTask with
  | some ⟨task, false⟩ =>
      have hnewest := seenTask_eq_some h hseen
      refine ⟨by omega, ht task hnewest, fun k hk hrunning => ?_⟩
      have hother := h.only k hrunning
      omega
  | some ⟨task, true⟩ =>
      have hnewest := seenTask_eq_some h hseen
      exact ⟨hnewest.le, fun k _ => not_running_of_done h (by simp [hseen]) k⟩
  | none => exact ⟨Nat.zero_le _, fun k hk => absurd hk (Nat.not_lt_zero k)⟩

theorem means_exec (h : Sane w) (ht : t.Means w) (hask : MayAsk x t o) :
    (t.afterOp o (Bot.exec o w).1).Means (Bot.exec o w).2 := by
  cases hask with
  | seedDayRoleMap => trivial
  | isPreflightDone =>
      show (Stage.afterOp .working .isPreflightDone w.preflightDone).Means w
      cases hdone : w.preflightDone with
      | true => trivial
      | false => exact hdone
  | guildId _ => exact ht
  | getGuild _ => exact ht
  | runPreflight =>
      generalize (Bot.exec (.runPreflight _) w).1 = result
      cases result <;> trivial
  | setPreflightDone => trivial
  | look ht => exact means_afterLook h ht
  | apiKey => exact ht
  | buildApp => exact ht
  | serve => trivial
  | beginReminders => exact (rfl : (Bot.exec .beginReminders w).2.remindersBegun = true)
  | openDatabase => exact ht
  | seedReminders => exact ht
  | readGuildId => exact ht
  | findGuild => exact ht
  | createAutoKick => exact ht
  | isAutoKickRunning =>
      generalize (Bot.exec .isAutoKickRunning w).1 = running
      cases running with
      | true => exact ht
      | false => trivial
  | cancelAutoKick => exact ht
  | signalExit =>
      intro k hk
      rw [length_signalExit] at hk
      rw [told_signalExit, h.server_eq, h.newest]
      exact .inr ⟨hk, by omega⟩
  | lookToDrain => exact means_afterLook_signalled h ht
  | hasHealthRunner => exact ht
  | hasSiegeClient => exact ht

/-- A preflight that ended without an exception was clean. -/
theorem exec_runPreflight_iff (guild : RankedGuild) :
    (Bot.exec (.runPreflight guild) w).1 = .ok () ↔
      (⟨guild, w.loadDayMap guild.id⟩ : PreflightRun).Clean := by
  simp only [Bot.exec, PreflightRun.Clean]
  cases w.loadDayMap guild.id with
  | none => simp
  | some dayMap =>
      simp only [Option.some.injEq, exists_eq_left', ← Roles.runPreflight_ok_iff]
      cases (Roles.runPreflight guild dayMap).2 with
      | ok _ => exact iff_of_true rfl rfl
      | error _ => exact iff_of_false (by simp [Except.mapError]) (by simp)

theorem Once.congr {runs : List PreflightRun} {settled settled' : Prop} (h : Once runs settled)
    (hsame : settled ↔ settled') : Once runs settled' :=
  ⟨fun hs => h.passed (hsame.mpr hs), fun hs => h.open_ fun hs' => hs (hsame.mp hs')⟩

/-- Where the preflight is asked for, it has not passed yet. -/
theorem once_runPreflight {guild : RankedGuild} (ht : w.preflightDone = false)
    (h : Once w.preflights False) :
    Once (Bot.exec (.runPreflight guild) w).2.preflights
      ((Bot.exec (.runPreflight guild) w).2.preflightDone = true ∨
        Stage.unchecked.afterOp (.runPreflight guild) (Bot.exec (.runPreflight guild) w).1 =
          .passed) := by
  have hdirty := h.open_ not_false
  have hclean := exec_runPreflight_iff (w := w) guild
  cases hresult : (Bot.exec (.runPreflight guild) w).1 with
  | ok _ =>
      refine ⟨fun _ => ⟨w.preflights, _, rfl, hclean.mp hresult, hdirty⟩, fun hs => ?_⟩
      exact absurd (.inr rfl) hs
  | error text =>
      refine ⟨fun hs => ?_, fun _ => ?_⟩
      · rcases hs with hdone | hpassed
        · exact absurd (ht.symm.trans hdone) (by decide)
        · cases hpassed
      · have hfailed := hclean.not.mp (by simp [hresult])
        exact List.forall_mem_append.mpr ⟨hdirty, List.forall_mem_singleton.mpr hfailed⟩

theorem afterLook_ne_passed (t : Stage) (seen : Option SeenTask) : t.afterLook seen ≠ .passed := by
  unfold Stage.afterLook
  split <;> exact Stage.noConfusion

theorem once_exec (ht : t.Means w) (hask : MayAsk x t o)
    (h : Once w.preflights (w.preflightDone = true ∨ t = .passed)) :
    Once (Bot.exec o w).2.preflights
      ((Bot.exec o w).2.preflightDone = true ∨ t.afterOp o (Bot.exec o w).1 = .passed) := by
  cases hask with
  | runPreflight =>
      exact once_runPreflight ht (h.congr (by simp [show w.preflightDone = false from ht]))
  | setPreflightDone => exact h.congr (iff_of_true (.inr rfl) (.inl rfl))
  | isPreflightDone =>
      refine h.congr (or_congr Iff.rfl (iff_of_false Stage.noConfusion ?_))
      generalize (Bot.exec .isPreflightDone w).1 = done
      cases done <;> exact Stage.noConfusion
  | isAutoKickRunning =>
      refine h.congr (or_congr Iff.rfl (iff_of_false Stage.noConfusion ?_))
      generalize (Bot.exec .isAutoKickRunning w).1 = running
      cases running <;> exact Stage.noConfusion
  | look ht =>
      refine h.congr (or_congr Iff.rfl (iff_of_false ?_ (afterLook_ne_passed _ _)))
      rintro rfl
      simp at ht
  | lookToDrain =>
      exact h.congr (or_congr Iff.rfl (iff_of_false Stage.noConfusion (afterLook_ne_passed _ _)))
  | guildId _ => exact h
  | getGuild _ => exact h
  | serve => exact h.congr (or_congr Iff.rfl (iff_of_false Stage.noConfusion Stage.noConfusion))
  | beginReminders =>
      exact h.congr (or_congr Iff.rfl (iff_of_false Stage.noConfusion Stage.noConfusion))
  | createAutoKick =>
      exact h.congr (or_congr Iff.rfl (iff_of_false Stage.noConfusion Stage.noConfusion))
  | signalExit =>
      exact h.congr (or_congr Iff.rfl (iff_of_false Stage.noConfusion Stage.noConfusion))
  | _ => exact h

theorem isOwner_afterLook (ht : t = .working ∨ t = .unchecked ∨ t = .signalled)
    (seen : Option SeenTask) : (t.afterLook seen).isOwner = false := by
  obtain rfl | rfl | rfl := ht <;> rcases seen with _ | ⟨task, _ | _⟩ <;> rfl

/-- Who owns the reminder task has owned it before, or has just begun. -/
theorem isOwner_of_afterOp (hask : MayAsk x t o)
    (h : (t.afterOp o (Bot.exec o w).1).isOwner = true) : t.isOwner = true ∨ t = .waking := by
  cases hask with
  | isPreflightDone =>
      generalize (Bot.exec .isPreflightDone w).1 = done at h
      cases done <;> cases h
  | runPreflight =>
      generalize (Bot.exec (.runPreflight _) w).1 = result at h
      cases result <;> cases h
  | guildId ht => obtain rfl | rfl := ht <;> cases h
  | getGuild ht => obtain rfl | rfl := ht <;> cases h
  | look ht => exact absurd ((isOwner_afterLook (by tauto) w.seenTask).symm.trans h) (by decide)
  | lookToDrain => exact absurd ((isOwner_afterLook (by tauto) w.seenTask).symm.trans h) (by decide)
  | beginReminders => exact .inr rfl
  | openDatabase => exact .inl rfl
  | seedReminders => exact .inl rfl
  | readGuildId => exact .inl rfl
  | findGuild => exact .inl rfl
  | createAutoKick => exact .inl rfl
  | isAutoKickRunning => exact .inl rfl
  | cancelAutoKick => exact .inl rfl
  | _ => cases h

/-- The sweeps start below their owner, and do not outlast it. -/
theorem sweeps_exec (hask : MayAsk x t o) (h : (Bot.exec o w).2.autoKickTask = some .running) :
    t.afterOp o (Bot.exec o w).1 = .sweeping ∨
      w.autoKickTask = some .running ∧ t ≠ .sweeping := by
  cases hask with
  | createAutoKick => exact .inl rfl
  | cancelAutoKick => exact .inl rfl
  | isAutoKickRunning =>
      have hrunning : (Bot.exec .isAutoKickRunning w).1 = true := decide_eq_true h
      rw [hrunning]
      exact .inl rfl
  | guildId ht => exact .inr ⟨h, by rintro rfl; simp at ht⟩
  | getGuild ht => exact .inr ⟨h, by rintro rfl; simp at ht⟩
  | look ht => exact .inr ⟨h, by rintro rfl; simp at ht⟩
  | _ => exact .inr ⟨h, Stage.noConfusion⟩

end Exec

/-! ## The protocol -/

variable {ι : Type} {mode : ι → Stage} {i : ι}

/-- What the stages say together. -/
structure Together (mode : ι → Stage) (w : Bot) : Prop where
  sane : Sane w
  means : ∀ i, (mode i).Means w
  once : Once w.preflights (w.preflightDone = true ∨ ∃ i, mode i = .passed)
  hot : ∀ i j, (mode i).isHot = true → (mode j).isHot = true → i = j
  owner : ∀ i j, (mode i).isOwner = true → (mode j).isOwner = true → i = j
  sweeps : w.autoKickTask = some .running → ∃ i, mode i = .sweeping

theorem Together.start (h : w.Fresh) : Together (fun _ : ι => .rest) w where
  sane := by
    refine ⟨h.sidecarServer.trans h.sidecarTask.symm, fun k => ?_, fun k hrunning => ?_⟩
    · simp [h.sidecarTask, h.servers]
    · exact absurd (lt_of_running hrunning) (by simp [h.servers])
  means _ := trivial
  once := by
    refine ⟨fun hs => ?_, fun _ => ?_⟩
    · simp [h.preflightDone] at hs
    · rw [h.preflights]
      exact List.forall_mem_nil _
  hot _ _ hi := by cases hi
  owner _ _ hi := by cases hi
  sweeps hrunning := by simp [h.autoKickTask] at hrunning

/-- While nobody is reminded there is no owner. -/
theorem Together.no_owner (h : Together mode w) (hbegun : w.remindersBegun = false) (j : ι) :
    (mode j).isOwner = false := by
  have hmeans := h.means j
  cases hj : mode j
  case preparing => simp [hj, Stage.Means, hbegun] at hmeans
  case sweeping => simp [hj, Stage.Means, hbegun] at hmeans
  all_goals rfl

theorem Together.elsewhere (h : Together mode w) (hcold : ∀ j, (mode j).isHot = false)
    (helsewhere : w.Elsewhere w') : Together mode w' := by
  obtain ⟨hdone, hpreflights, htask, hserver, hbegun⟩ := helsewhere.same
  have hlater : Later w w' :=
    ⟨helsewhere.servers.ge, fun k _ => helsewhere.running k, helsewhere.told,
      fun hw => hbegun.trans hw⟩
  refine ⟨⟨?_, fun k => ?_, fun k hrunning => ?_⟩, fun i => (h.means i).later (hcold i) hlater, ?_,
    h.hot, h.owner, fun hrunning => ?_⟩
  · rw [hserver, htask]
    exact h.sane.server_eq
  · rw [htask, helsewhere.servers]
    exact h.sane.newest k
  · rw [helsewhere.servers]
    exact h.sane.only k (helsewhere.running k hrunning)
  · rw [hpreflights, hdone]
    exact h.once
  · rcases helsewhere.autoKick with hsame | ⟨_, hended⟩
    · exact h.sweeps (hsame ▸ hrunning)
    · rw [hended] at hrunning
      cases hrunning

variable [DecidableEq ι]

/-- One routine moves on; the others are where nothing is spoilt. -/
theorem Together.update (h : Together mode w) (hcold : ∀ j, j ≠ i → (mode j).isHot = false)
    (hlater : Later w w') (hsane : Sane w') (hmeans : t.Means w')
    (honce : Once w'.preflights (w'.preflightDone = true ∨ t = .passed))
    (howner : t.isOwner = true → (mode i).isOwner = true ∨ ∀ j, (mode j).isOwner = false)
    (hsweeps : w'.autoKickTask = some .running →
      t = .sweeping ∨ w.autoKickTask = some .running ∧ mode i ≠ .sweeping) :
    Together (Function.update mode i t) w' := by
  constructor
  · exact hsane
  · intro j
    by_cases hji : j = i
    · subst hji
      simpa using hmeans
    · simpa [hji] using (h.means j).later (hcold j hji) hlater
  · refine honce.congr (or_congr Iff.rfl ?_)
    rw [Function.exists_update_iff mode fun _ s => s = .passed]
    refine (or_iff_left ?_).symm
    intro hj
    obtain ⟨j, hji, hpassed⟩ := hj
    simpa [hpassed, Stage.isHot] using hcold j hji
  · have honly : ∀ j, (Function.update mode i t j).isHot = true → j = i := by
      intro j hj
      by_contra hji
      rw [Function.update_of_ne hji, hcold j hji] at hj
      cases hj
    intro j k hj hk
    exact (honly j hj).trans (honly k hk).symm
  · have hone : ∀ j, j ≠ i → t.isOwner = true → (mode j).isOwner = true → False := by
      intro j hji ht hj
      rcases howner ht with hi | hnone
      · exact hji (h.owner j i hj hi)
      · simp [hnone j] at hj
    intro j k hj hk
    by_cases hji : j = i <;> by_cases hki : k = i
    · exact hji.trans hki.symm
    · subst hji
      rw [Function.update_self] at hj
      rw [Function.update_of_ne hki] at hk
      exact (hone k hki hj hk).elim
    · subst hki
      rw [Function.update_self] at hk
      rw [Function.update_of_ne hji] at hj
      exact (hone j hji hk hj).elim
    · rw [Function.update_of_ne hji] at hj
      rw [Function.update_of_ne hki] at hk
      exact h.owner j k hj hk
  · intro hrunning
    rw [Function.exists_update_iff mode fun _ s => s = .sweeping]
    rcases hsweeps hrunning with ht | ⟨hold, hi⟩
    · exact .inl ht
    · obtain ⟨j, hj⟩ := h.sweeps hold
      exact .inr ⟨j, fun hji => hi (hji ▸ hj), hj⟩

theorem MayAwait.isHot {call : BotCall} (h : MayAwait x t call) : t.isHot = false := by
  cases h <;> rfl

/-- A routine that awaits, or does nothing, is in no stage that can be spoilt. -/
theorem isHot_of_not_ready {c : BotConfig ι} (h : lifecycle.Governs Leaves Together mode c)
    (hready : (c.task i).isReady = false) : (mode i).isHot = false := by
  by_contra hhot
  rw [Bool.not_eq_false] at hhot
  have hisReady : (c.task i).isReady = true := by
    refine h.isReady (fun hrest => ?_) fun x before call hcall heq => ?_
    · rw [hrest] at hhot
      cases hhot
    · rw [heq] at hhot
      exact absurd (hcall.isHot.symm.trans hhot) (by decide)
  exact absurd (hready.symm.trans hisReady) (by decide)

/-- A routine moves on where the client stays as it is. -/
theorem Together.stay (h : Together mode w) (hcold : ∀ j, j ≠ i → (mode j).isHot = false)
    (hi : mode i ≠ .passed) (hmeans : t.Means w) (hpassed : t ≠ .passed)
    (howner : t.isOwner = true → (mode i).isOwner = true ∨ ∀ j, (mode j).isOwner = false)
    (hsweeps : w.autoKickTask = some .running → mode i = .sweeping → t = .sweeping) :
    Together (Function.update mode i t) w := by
  refine h.update hcold (.refl w) h.sane hmeans (h.once.congr ?_) howner fun hrunning => ?_
  · refine or_congr Iff.rfl (iff_of_false ?_ hpassed)
    intro hj
    obtain ⟨j, hj⟩ := hj
    by_cases hji : j = i
    · exact hi (hji ▸ hj)
    · simpa [hj, Stage.isHot] using hcold j hji
  · by_cases hswept : mode i = .sweeping
    · exact .inl (hsweeps hrunning hswept)
    · exact .inr ⟨hrunning, hswept⟩

section Answers

variable {call : BotCall}

/-- A server that was awaited is done, and those before it were. -/
theorem means_afterCall (h : MayAwait x t call) (hmeans : t.Means w) (hover : w.Over call) :
    (t.afterCall call).Means w := by
  cases h with
  | @sidecar task =>
      obtain ⟨hlt, -, hdone⟩ := hmeans
      refine ⟨hlt, fun k hk => ?_⟩
      rcases (Nat.lt_succ_iff.mp hk).lt_or_eq with hearlier | rfl
      · exact hdone k hearlier
      · exact hover
  | autoKick => trivial
  | _ => exact hmeans

theorem afterCall_ne_passed (h : MayAwait x t call) : t.afterCall call ≠ .passed := by
  cases h <;> exact Stage.noConfusion

theorem isOwner_of_afterCall (h : MayAwait x t call) (howner : (t.afterCall call).isOwner = true) :
    t.isOwner = true := by
  cases h <;> first | rfl | cases howner

/-- The sweeps have ended where they were awaited. -/
theorem sweeping_afterCall (h : MayAwait x t call) (hover : w.Over call)
    (hrunning : w.autoKickTask = some .running) (hswept : t = .sweeping) :
    t.afterCall call = .sweeping := by
  cases h with
  | autoKick => exact absurd hrunning hover
  | runScheduler => rfl
  | _ => cases hswept

end Answers

/-- **Step lemma.** -/
theorem lifecycle_sound :
    lifecycle.Sound Leaves (Together : (ι → Stage) → Bot → Prop) bot Scheduled where
  program := program_follows
  spawn {mode c i x} h hscheduled htask hrest := by
    have hcold : ∀ j, (mode j).isHot = false := fun j =>
      isHot_of_not_ready h (hscheduled.1 j)
    have hmay : c.shared.MayStart x := hscheduled.2.2
    refine h.holds.stay (fun j _ => hcold j) ?_ ?_ ?_ ?_ ?_
    · rw [hrest]
      exact Stage.noConfusion
    · cases x with
      | onReady => trivial
      | close => trivial
      | startRemindersAfterReady => exact hmay
    · cases x <;> exact Stage.noConfusion
    · intro howner
      cases x <;> cases howner
    · intro _ hswept
      rw [hrest] at hswept
      cases hswept
  op {mode c i x o next} h hscheduled htask hok := by
    have hcold : ∀ j, j ≠ i → (mode j).isHot = false := fun j hji =>
      isHot_of_not_ready h (hscheduled.1 j hji)
    have honce : Once c.shared.preflights
        (c.shared.preflightDone = true ∨ mode i = .passed) := by
      refine h.holds.once.congr (or_congr Iff.rfl ⟨fun hj => ?_, fun hi => ⟨i, hi⟩⟩)
      obtain ⟨j, hj⟩ := hj
      by_cases hji : j = i
      · exact hji ▸ hj
      · exact absurd (hcold j hji) (by simp [hj, Stage.isHot])
    refine ⟨trivial, h.holds.update hcold (later_exec o _)
      (sane_exec h.holds.sane (h.holds.means i) hok)
      (means_exec h.holds.sane (h.holds.means i) hok) (once_exec (h.holds.means i) hok honce)
      (fun howner => ?_) (sweeps_exec hok)⟩
    rcases isOwner_of_afterOp hok howner with hold | hwaking
    · exact .inl hold
    · have hmeans := h.holds.means i
      rw [hwaking] at hmeans
      exact .inr fun j => h.holds.no_owner hmeans j
  issue {mode c i x call next} h hscheduled htask hok := by
    show Together (Function.update mode i (mode i)) c.shared
    rw [Function.update_eq_self]
    exact h.holds
  answer {mode c i x call next before reply} h hscheduled htask hmode hok := by
    have hcold : ∀ j, (mode j).isHot = false := fun j =>
      isHot_of_not_ready h (hscheduled.1 j)
    have hover : c.shared.Over call := by
      have horder := hscheduled.2.2
      simp only [InOrder, htask] at horder
      exact horder
    have hmeans : before.Means c.shared := by
      have hi := h.holds.means i
      rwa [hmode] at hi
    show Together (Function.update mode i (before.afterCall call)) c.shared
    have hbefore : mode i = before := hmode
    refine h.holds.stay (fun j _ => hcold j) ?_ (means_afterCall hok hmeans hover)
      (afterCall_ne_passed hok) ?_ ?_
    · intro hpassed
      simpa [hpassed, Stage.isHot] using hcold i
    · intro howner
      rw [hbefore]
      exact .inl (isOwner_of_afterCall hok howner)
    · intro hrunning hswept
      rw [hbefore] at hswept
      exact sweeping_afterCall hok hover hrunning hswept
  finish {mode c i x value} h hscheduled htask hpost := by
    have hcold : ∀ j, j ≠ i → (mode j).isHot = false := fun j hji =>
      isHot_of_not_ready h (hscheduled.1 j hji)
    have hended : (mode i).isPending = false := hpost
    refine h.holds.stay hcold (fun hpassed => ?_) trivial Stage.noConfusion (fun howner => ?_)
      fun _ hswept => ?_
    · simp [hpassed, Stage.isPending] at hended
    · cases howner
    · simp [hswept, Stage.isPending] at hended
  outside {mode c shared} h hscheduled helsewhere :=
    h.holds.elsewhere (fun j => isHot_of_not_ready h (hscheduled.2.1 rfl j)) helsewhere

/-! ## What holds in every run -/

section Runs

variable {w₀ : Bot} {c c' : BotConfig ι}

/-- **Run lemma.** -/
theorem governed_of_reachable (hfresh : w₀.Fresh) (h : bot.Reachable Scheduled w₀ c) :
    ∃ mode, lifecycle.Governs Leaves (Together : (ι → Stage) → Bot → Prop) mode c :=
  Protocol.governed lifecycle_sound (.start hfresh) h

/-- The sweeps belong to the routine that has started them. -/
theorem startedWith_of_sweeping {progress : Progress botEffects Routine (Except Raised Unit)}
    (h : lifecycle.Fits Leaves progress .sweeping) :
    progress.startedWith? = some .startRemindersAfterReady := by
  cases progress with
  | idle => cases h
  | ready x rest =>
      cases rest with
      | done value => cases h
      | op o next =>
          obtain ⟨hask, -⟩ := h
          cases hask
          case guildId ht => simp at ht
          case getGuild ht => simp at ht
          case look ht => simp at ht
          all_goals rfl
      | await call next =>
          obtain ⟨hawait, -⟩ := h
          cases hawait <;> rfl
  | awaiting x call next =>
      obtain ⟨before, rfl, hawait, -⟩ := h
      cases hawait <;> rfl

/-- Of all the servers that were ever started at most one runs, and both references of the client
are to it; `close` awaits no server that it has not told to exit; and the sweeps do not run without
the routine that stops them. -/
theorem reachable_oneSidecar (hfresh : w₀.Fresh) (h : bot.Reachable Scheduled w₀ c) :
    (∀ k, c.shared.Running k →
        c.shared.sidecarTask = some k ∧ c.shared.sidecarServer = some k) ∧
      (∀ i x task next, c.task i = .awaiting x (.sidecar task) next → c.shared.Told task) ∧
      (c.shared.autoKickTask = some .running →
        ∃ i, (c.task i).startedWith? = some .startRemindersAfterReady) := by
  obtain ⟨mode, hgoverns⟩ := governed_of_reachable hfresh h
  have htogether := hgoverns.holds
  refine ⟨fun k hrunning => ?_, fun i x task next htask => ?_, fun hrunning => ?_⟩
  · have hnewest := (htogether.sane.newest k).mpr (htogether.sane.only k hrunning)
    exact ⟨hnewest, htogether.sane.server_eq.trans hnewest⟩
  · obtain ⟨before, hmode, hawait⟩ := hgoverns.atCall htask
    have hmeans := htogether.means i
    rw [hmode] at hmeans
    cases hawait
    exact hmeans.2.1
  · obtain ⟨i, hsweeping⟩ := htogether.sweeps hrunning
    exact ⟨i, startedWith_of_sweeping (hsweeping ▸ hgoverns.fits i)⟩

/-- The preflight is asked for only while every run of it has failed to read its map or found
violations, and is done with only after one that found none. -/
theorem reachable_preflight (hfresh : w₀.Fresh) (h : bot.Reachable Scheduled w₀ c) :
    (∀ i x guild next, c.task i = .ready x (.op (.runPreflight guild) next) →
        c.shared.preflightDone = false ∧ ∀ run ∈ c.shared.preflights, ¬ run.Clean) ∧
      (c.shared.preflightDone = true → ∃ before last,
        c.shared.preflights = before ++ [last] ∧ last.Clean ∧ ∀ run ∈ before, ¬ run.Clean) := by
  obtain ⟨mode, hgoverns⟩ := governed_of_reachable hfresh h
  have htogether := hgoverns.holds
  refine ⟨fun i x guild next htask => ?_, fun hdone => htogether.once.passed (.inl hdone)⟩
  have hask : MayAsk x (mode i) (.runPreflight guild) := hgoverns.opOk htask
  generalize hmode : mode i = t at hask
  cases hask
  have hopen : c.shared.preflightDone = false := by
    have hmeans := htogether.means i
    rwa [hmode] at hmeans
  refine ⟨hopen, htogether.once.open_ fun hsettled => ?_⟩
  rcases hsettled with hdone | ⟨j, hpassed⟩
  · exact absurd (hopen.symm.trans hdone) (by decide)
  · have hji : j = i := htogether.hot j i (by rw [hpassed]; rfl) (by rw [hmode]; rfl)
    rw [hji, hmode] at hpassed
    cases hpassed

/-! ### After the drain -/

/-- The servers that a draining or drained `close` accounts for. -/
def Stage.count? : Stage → Option ℕ
  | draining task => some (task + 1)
  | drained count => some count
  | rest | working | unchecked | passed | clear | signalled | waking | preparing | sweeping => none

/-- Where `close` is past its look, it accounts for the first `count` servers. -/
def Counts (i : ι) (count : ℕ) (mode : ι → Stage) (c : BotConfig ι) : Prop :=
  count ≤ c.shared.servers.length ∧ ∀ n, (mode i).count? = some n → count ≤ n

theorem length_le_of_step {event : BotEvent ι} (hadmits : bot.Admits c event)
    (hstep : bot.step c event = some c') : c.shared.servers.length ≤ c'.shared.servers.length := by
  cases Concurrent.happens_of_step hstep with
  | spawn => exact le_refl _
  | op => exact (later_exec _ _).servers
  | issue => exact le_refl _
  | answer => exact le_refl _
  | finish => exact le_refl _
  | outside => exact (show c.shared.Elsewhere _ from hadmits).servers.ge

/-- The look at the server counts what there is. -/
theorem count_afterLook (hsane : Sane w) {n : ℕ}
    (h : (Stage.signalled.afterLook w.seenTask).count? = some n) : n = w.servers.length := by
  match hseen : w.seenTask with
  | some ⟨task, false⟩ =>
      rw [hseen] at h
      exact (Option.some.inj h).symm.trans (seenTask_eq_some hsane hseen)
  | some ⟨task, true⟩ =>
      rw [hseen] at h
      exact (Option.some.inj h).symm.trans (seenTask_eq_some hsane hseen)
  | none =>
      rw [hseen] at h
      have hzero : 0 = n := Option.some.inj h
      -- without a reference no server was ever started
      by_contra hne
      have hnewest := (hsane.newest (w.servers.length - 1)).mpr (by omega)
      simp [Bot.seenTask, hnewest] at hseen

theorem count_afterOp {o : BotOp} (hsane : Sane w) (hask : MayAsk x t o) {n : ℕ}
    (h : (t.afterOp o (Bot.exec o w).1).count? = some n) :
    t.count? = some n ∨ n = w.servers.length := by
  cases hask with
  | lookToDrain => exact .inr (count_afterLook hsane h)
  | look ht =>
      have hlook : ∀ seen, (t.afterLook seen).count? = none := by
        intro seen
        obtain rfl | rfl := ht <;> rcases seen with _ | ⟨task, _ | _⟩ <;> rfl
      cases (hlook w.seenTask).symm.trans h
  | isPreflightDone =>
      generalize (Bot.exec .isPreflightDone w).1 = done at h
      cases done <;> cases h
  | isAutoKickRunning =>
      generalize (Bot.exec .isAutoKickRunning w).1 = running at h
      cases running <;> cases h
  | runPreflight =>
      generalize (Bot.exec (.runPreflight _) w).1 = result at h
      cases result <;> cases h
  | guildId ht => obtain rfl | rfl := ht <;> cases h
  | getGuild ht => obtain rfl | rfl := ht <;> cases h
  | hasHealthRunner => exact .inl h
  | hasSiegeClient => exact .inl h
  | _ => cases h

theorem counts_keeps (i : ι) (count : ℕ) :
    lifecycle.Keeps Leaves Together bot Scheduled (Counts i count) := by
  intro mode mode' c c' event hgoverns hgoverns' hscheduled hadmits hstep hmoves hcounts
  obtain ⟨hcount, hfound⟩ := hcounts
  refine ⟨hcount.trans (length_le_of_step hadmits hstep), fun n hn => ?_⟩
  have hi := hmoves i
  generalize mode i = t at hi hfound
  generalize mode' i = t' at hi hn
  cases hi with
  | others => exact hfound n hn
  | @spawn _ x => cases x <;> cases hn
  | op htask hask =>
      rcases count_afterOp hgoverns.holds.sane hask hn with hold | hnow
      · exact hfound n hold
      · exact hnow ▸ hcount
  | issue => exact hfound n hn
  | answer htask hawait =>
      cases hawait with
      | autoKick => cases hn
      | _ => exact hfound n hn
  | finish => cases hn

/-- Once `close` is past the drain, every server that had been started when it looked is done,
whatever `on_ready` has done meanwhile: what runs then was started later. -/
theorem drained_of_leads (hfresh : w₀.Fresh) (h : bot.Reachable Scheduled w₀ c) {i : ι}
    {next : Option SeenTask → Coroutine botEffects (Except Raised Unit)}
    (hlook : c.task i = .ready .close (.op .sidecarTask next))
    (hleads : bot.Leads Scheduled c c') {x : Routine} {call : BotCall}
    {rest : Outcome → Coroutine botEffects (Except Raised Unit)}
    (hpast : c'.task i = .awaiting x call rest)
    (hcall : call ∈ [.cleanupHealth, .closeSiege, .closeGateway]) :
    ∀ k < c.shared.servers.length, ¬ c'.shared.Running k := by
  obtain ⟨mode, hgoverns⟩ := governed_of_reachable hfresh h
  have hask : MayAsk .close (mode i) .sidecarTask := hgoverns.opOk hlook
  have hcounts : Counts i c.shared.servers.length mode c := by
    generalize hmode : mode i = t at hask
    cases hask
    refine ⟨le_refl _, fun n hn => ?_⟩
    rw [hmode] at hn
    cases hn
  obtain ⟨mode', hgoverns', -, hfound⟩ :=
    hgoverns.leads hcounts lifecycle_sound (counts_keeps i _) (fun _ _ h => h) hleads
  obtain ⟨before, hmode, hawait⟩ := hgoverns'.atCall hpast
  have hbefore : mode' i = before := hmode
  have hmeans := hgoverns'.holds.means i
  rw [hbefore] at hmeans hfound
  obtain ⟨n, rfl⟩ : ∃ n, before = .drained n := by
    cases hawait <;> first | exact ⟨_, rfl⟩ | simp at hcall
  intro k hk
  exact hmeans.2 k (hk.trans_le (hfound n rfl))

end Runs

/-! ### A run -/

/-- One guild with one day role, which the bot outranks. -/
def clanGateway : Gateway where
  guilds := [⟨1, [⟨⟨10, "Siege - Day 1 Attacker"⟩, 3⟩], 8⟩]
  distinctIds := by decide

theorem nodup_noRows : (([] : List Roles.StoredDayRole).map Roles.StoredDayRole.key).Nodup :=
  List.nodup_nil

/-- The bot of that guild, as `setup_hook` leaves it. -/
def freshBot : Bot where
  around := ⟨clanGateway, some 1, some "key", none, Int.ofNat, true, true, true⟩
  dayRoleMap := ⟨⟨[], nodup_noRows⟩, []⟩
  preflightDone := false
  preflights := []
  servers := []
  sidecarTask := none
  sidecarServer := none
  remindersBegun := false
  autoKickTask := none
  hasHealthRunner := true
  hasSiegeClient := true

theorem freshBot_fresh : freshBot.Fresh := ⟨rfl, rfl, rfl, rfl, rfl, rfl, rfl⟩

/-- The gateway is ready, and `close` has told the server to exit. -/
def toLook : List (BotEvent Bool) :=
  .spawn true .onReady :: List.replicate 12 (.op true) ++
    [.finish true, .spawn false .close, .op false]

/-- `Scheduled`, as it is computed. -/
def Permits (c : BotConfig Bool) (event : BotEvent Bool) : Bool := decide (Scheduled c event)

theorem toLook_performed : (bot.runIf Permits (.start freshBot) toLook).isSome = true := by
  decide +kernel

/-- `close` is about to look at the server. -/
def aboutToLook : BotConfig Bool := Option.get _ toLook_performed

theorem aboutToLook_reachable : bot.Reachable Scheduled freshBot aboutToLook :=
  Concurrent.Reachable.start.runIf (fun _ _ h => of_decide_eq_true h) rfl
    (Option.some_get toLook_performed).symm

theorem toAwait_performed :
    (bot.runIf Permits aboutToLook [.op false, .issue false]).isSome = true := by
  decide +kernel

/-- `close` awaits the server. -/
def awaitingSidecar : BotConfig Bool := Option.get _ toAwait_performed

theorem awaitingSidecar_leads : bot.Leads Scheduled aboutToLook awaitingSidecar :=
  Concurrent.Leads.refl.runIf (fun _ _ h => of_decide_eq_true h) rfl
    (Option.some_get toAwait_performed).symm

theorem reachable_oneSidecar_draining :
    awaitingSidecar.shared.Running 0 ∧
      (∀ k, awaitingSidecar.shared.Running k →
          awaitingSidecar.shared.sidecarTask = some k ∧
            awaitingSidecar.shared.sidecarServer = some k) ∧
      (∀ i x task next, awaitingSidecar.task i = .awaiting x (.sidecar task) next →
          awaitingSidecar.shared.Told task) ∧
      (awaitingSidecar.shared.autoKickTask = some .running →
        ∃ i, (awaitingSidecar.task i).startedWith? = some .startRemindersAfterReady) := by
  refine ⟨by decide +kernel, reachable_oneSidecar freshBot_fresh ?_⟩
  exact aboutToLook_reachable.leads awaitingSidecar_leads fun _ _ h => h

theorem reachable_preflight_passed : aboutToLook.shared.preflightDone = true ∧
    (∀ i x guild next, aboutToLook.task i = .ready x (.op (.runPreflight guild) next) →
        aboutToLook.shared.preflightDone = false ∧
          ∀ run ∈ aboutToLook.shared.preflights, ¬ run.Clean) ∧
      (aboutToLook.shared.preflightDone = true → ∃ before last,
        aboutToLook.shared.preflights = before ++ [last] ∧ last.Clean ∧
          ∀ run ∈ before, ¬ run.Clean) :=
  ⟨by decide +kernel, reachable_preflight freshBot_fresh aboutToLook_reachable⟩

/-- The server has ended. -/
def drainedConfig : BotConfig Bool :=
  { awaitingSidecar with shared := { awaitingSidecar.shared with servers := [⟨true, .done⟩] } }

theorem servers_awaitingSidecar : awaitingSidecar.shared.servers = [⟨true, .running⟩] := by
  decide +kernel

theorem drainedConfig_leads : bot.Leads Scheduled aboutToLook drainedConfig := by
  have hidle : ∀ i, (awaitingSidecar.task i).isReady = false := by
    decide +kernel
  have helsewhere : awaitingSidecar.shared.Elsewhere drainedConfig.shared := by
    refine ⟨fun k hrunning => ?_, fun k htold => ?_, ?_, .inl rfl, rfl, rfl, rfl, rfl, rfl⟩
    · cases k <;> simp [Bot.Running, drainedConfig] at hrunning
    · cases k <;> simp [Bot.Told, drainedConfig, servers_awaitingSidecar] at htold ⊢
    · rw [servers_awaitingSidecar]
      rfl
  have hscheduled : Scheduled awaitingSidecar (.outside drainedConfig.shared) :=
    ⟨trivial, fun _ => hidle, trivial⟩
  exact awaitingSidecar_leads.step hscheduled helsewhere rfl

/-- The server answers its `close`, which goes on to the health server. -/
def toCleanup : List (BotEvent Bool) := [.answer false fun _ => .ok (), .op false, .issue false]

theorem toCleanup_performed : (bot.runIf Permits drainedConfig toCleanup).isSome = true := by
  decide +kernel

/-- `close` awaits the health server. -/
def cleaningUp : BotConfig Bool := Option.get _ toCleanup_performed

/-- The task stands before the look at the server. -/
def looks : Progress botEffects Routine (Except Raised Unit) → Bool
  | .ready .close (.op .sidecarTask _) => true
  | _ => false

/-- The task awaits the end of the health server. -/
def cleansUp : Progress botEffects Routine (Except Raised Unit) → Bool
  | .awaiting _ .cleanupHealth _ => true
  | _ => false

theorem drained_of_leads_cleanup : aboutToLook.shared.Running 0 ∧
    ∀ k < aboutToLook.shared.servers.length, ¬ cleaningUp.shared.Running k := by
  refine ⟨by decide +kernel, ?_⟩
  have hleads : bot.Leads Scheduled aboutToLook cleaningUp :=
    drainedConfig_leads.runIf (fun _ _ h => of_decide_eq_true h) rfl
      (Option.some_get toCleanup_performed).symm
  have hlooks : looks (aboutToLook.task false) = true := by
    decide +kernel
  have hcleans : cleansUp (cleaningUp.task false) = true := by
    decide +kernel
  unfold looks at hlooks
  unfold cleansUp at hcleans
  split at hlooks
  case h_2 => cases hlooks
  next next hlook =>
    split at hcleans
    case h_2 => cases hcleans
    next x rest hpast =>
      exact drained_of_leads freshBot_fresh aboutToLook_reachable hlook hleads hpast (by simp)

end MomBot.Startup
