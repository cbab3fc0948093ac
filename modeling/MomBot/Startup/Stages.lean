import MomBot.Startup.Bot

/-!
# The stages of the client's routines

A routine looks before it acts and awaits nothing in between.  A `Stage` says what a routine has
just found out; the stages that another routine could spoil are those in which nothing is awaited
(`Stage.isHot`).  Every routine keeps to the stages (`program_follows`); what a stage means for the
client is the subject of `Lifecycle.lean`.
-/

namespace MomBot.Startup

open Cooperative Coroutine
open Roles (RankedGuild)

/-! ## Stages -/

/-- How far a routine has come.  A `clear` one has seen that no server runs; a `drained` one has
found the servers below that number done. -/
inductive Stage where
  | rest
  | working
  | unchecked
  | passed
  | clear
  | signalled
  | draining (task : ℕ)
  | drained (count : ℕ)
  | waking
  | preparing
  | sweeping
  deriving DecidableEq, Repr

namespace Stage

/-- The routine awaits nothing before it leaves this stage. -/
def isHot : Stage → Bool
  | unchecked | passed | clear | signalled | waking => true
  | rest | working | draining _ | drained _ | preparing | sweeping => false

/-- The reminder task, from its first step on. -/
def isOwner : Stage → Bool
  | preparing | sweeping => true
  | rest | working | unchecked | passed | clear | signalled | draining _ | drained _
  | waking => false

/-- The routine has something left to do. -/
def isPending : Stage → Bool
  | passed | sweeping => true
  | rest | working | unchecked | clear | signalled | draining _ | drained _ | waking | preparing =>
      false

/-- What the look at `_sidecar_task` has shown. -/
def afterLook : Stage → Option SeenTask → Stage
  | signalled, none => drained 0
  | signalled, some ⟨task, true⟩ => drained (task + 1)
  | signalled, some ⟨task, false⟩ => draining task
  | _, some ⟨_, false⟩ => working
  | _, _ => clear

/-- What an operation has shown or done. -/
def afterOp (t : Stage) : (o : BotOp) → o.Res → Stage
  | .isPreflightDone, true => t
  | .isPreflightDone, false => unchecked
  | .runPreflight _, .ok _ => passed
  | .runPreflight _, .error _ => working
  | .setPreflightDone, _ => working
  | .sidecarTask, seen => t.afterLook seen
  | .serve, _ => working
  | .beginReminders, _ => preparing
  | .createAutoKick, _ => sweeping
  | .isAutoKickRunning, true => t
  | .isAutoKickRunning, false => working
  | .signalExit, _ => signalled
  | .seedDayRoleMap, _ | .guildId, _ | .getGuild _, _ | .apiKey, _ | .buildApp _ _, _
  | .openDatabase, _ | .seedReminders, _ | .cancelAutoKick, _ | .hasHealthRunner, _
  | .hasSiegeClient, _ => t

/-- A server that was awaited is done. -/
def afterCall (t : Stage) : BotCall → Stage
  | .sidecar task => drained (task + 1)
  | .autoKick => working
  | .waitUntilReady | .runScheduler | .cleanupHealth | .closeSiege | .closeGateway => t

end Stage

/-- Which operation a routine comes to in which stage. -/
inductive MayAsk : Routine → Stage → BotOp → Prop
  | seedDayRoleMap : MayAsk .onReady .working .seedDayRoleMap
  | isPreflightDone : MayAsk .onReady .working .isPreflightDone
  | guildId {t : Stage} : t = .unchecked ∨ t = .clear → MayAsk .onReady t .guildId
  | getGuild {t : Stage} {guildId : ℤ} : t = .unchecked ∨ t = .clear →
      MayAsk .onReady t (.getGuild guildId)
  | runPreflight {guild : RankedGuild} : MayAsk .onReady .unchecked (.runPreflight guild)
  | setPreflightDone : MayAsk .onReady .passed .setPreflightDone
  | look {t : Stage} : t = .working ∨ t = .unchecked → MayAsk .onReady t .sidecarTask
  | apiKey : MayAsk .onReady .clear .apiKey
  | buildApp {apiKey : String} {guild : RankedGuild} :
      MayAsk .onReady .clear (.buildApp apiKey guild)
  | serve : MayAsk .onReady .clear .serve
  | beginReminders : MayAsk .startRemindersAfterReady .waking .beginReminders
  | openDatabase : MayAsk .startRemindersAfterReady .preparing .openDatabase
  | seedReminders : MayAsk .startRemindersAfterReady .preparing .seedReminders
  | readGuildId : MayAsk .startRemindersAfterReady .preparing .guildId
  | findGuild {guildId : ℤ} : MayAsk .startRemindersAfterReady .preparing (.getGuild guildId)
  | createAutoKick : MayAsk .startRemindersAfterReady .preparing .createAutoKick
  | isAutoKickRunning : MayAsk .startRemindersAfterReady .sweeping .isAutoKickRunning
  | cancelAutoKick : MayAsk .startRemindersAfterReady .sweeping .cancelAutoKick
  | signalExit : MayAsk .close .working .signalExit
  | lookToDrain : MayAsk .close .signalled .sidecarTask
  | hasHealthRunner {count : ℕ} : MayAsk .close (.drained count) .hasHealthRunner
  | hasSiegeClient {count : ℕ} : MayAsk .close (.drained count) .hasSiegeClient

/-- Which call a routine comes to in which stage. -/
inductive MayAwait : Routine → Stage → BotCall → Prop
  | waitUntilReady : MayAwait .startRemindersAfterReady .preparing .waitUntilReady
  | runScheduler : MayAwait .startRemindersAfterReady .sweeping .runScheduler
  | autoKick : MayAwait .startRemindersAfterReady .sweeping .autoKick
  | sidecar {task : ℕ} : MayAwait .close (.draining task) (.sidecar task)
  | cleanupHealth {count : ℕ} : MayAwait .close (.drained count) .cleanupHealth
  | closeSiege {count : ℕ} : MayAwait .close (.drained count) .closeSiege
  | closeGateway {count : ℕ} : MayAwait .close (.drained count) .closeGateway

/-- The routines, each operation and each call of theirs in its stage. -/
def lifecycle : Protocol botEffects Routine Stage where
  rest := .rest
  start
    | .startRemindersAfterReady => .waking
    | .onReady | .close => .working
  opOk := MayAsk
  gives _ _ _ := True
  afterOp := Stage.afterOp
  callOk := MayAwait
  atCall t _ := t
  afterCall t call _ := t.afterCall call

/-- No routine leaves the sweeps behind, or a preflight that it has not noted. -/
def Leaves {α : Type} (_ : α) (t : Stage) : Prop := t.isPending = false

/-! ## The routines keep to the stages -/

section Follows

variable {α : Type} {t : Stage}

/-- The end of `on_ready` has no obligations. -/
theorem follows_startSidecar :
    startSidecar.run.Follows lifecycle .onReady Leaves .clear := by
  refine ⟨.apiKey, fun apiKey _ => ?_⟩
  cases apiKey with
  | error exc => exact rfl
  | ok apiKey =>
      refine ⟨.guildId (.inr rfl), fun guildId _ => ?_⟩
      cases guildId with
      | error exc => exact rfl
      | ok guildId =>
          refine ⟨.getGuild (.inr rfl), fun guild _ => ?_⟩
          cases guild with
          | none => exact rfl
          | some guild =>
              refine ⟨.buildApp, fun built _ => ?_⟩
              cases built with
              | error exc => exact rfl
              | ok _ => exact ⟨.serve, fun _ _ => rfl⟩

/-- Where the preflight of `on_ready` leaves off. -/
def Preflown (result : Except Raised Unit) (t : Stage) : Prop :=
  match result with
  | .ok () => t = .working ∨ t = .unchecked
  | .error _ => t.isPending = false

theorem follows_preflightOnce :
    preflightOnce.run.Follows lifecycle .onReady Preflown .unchecked := by
  refine ⟨.guildId (.inl rfl), fun guildId _ => ?_⟩
  cases guildId with
  | error exc => exact rfl
  | ok guildId =>
      refine ⟨.getGuild (.inl rfl), fun guild _ => ?_⟩
      cases guild with
      | none => exact .inr rfl
      | some guild =>
          refine ⟨.runPreflight, fun result _ => ?_⟩
          cases result with
          | error exc => exact .inl rfl
          | ok _ => exact ⟨.setPreflightDone, fun _ _ => .inl rfl⟩

/-- The look at the sidecar, and what follows from it. -/
theorem follows_look (ht : t = .working ∨ t = .unchecked) :
    (ask .sidecarTask >>= startUnlessRunning).run.Follows lifecycle .onReady Leaves t := by
  refine ⟨.look ht, fun sidecar _ => ?_⟩
  show (startUnlessRunning sidecar).run.Follows lifecycle .onReady Leaves (t.afterLook sidecar)
  have hclear : startSidecar.run.Follows lifecycle .onReady Leaves .clear := follows_startSidecar
  match sidecar with
  | none => obtain rfl | rfl := ht <;> exact hclear
  | some ⟨_, true⟩ => obtain rfl | rfl := ht <;> exact hclear
  | some ⟨_, false⟩ => obtain rfl | rfl := ht <;> exact rfl

theorem follows_onReady : onReady.run.Follows lifecycle .onReady Leaves .working := by
  refine ⟨.seedDayRoleMap, fun _ _ => ⟨.isPreflightDone, fun preflightDone _ => ?_⟩⟩
  cases preflightDone with
  | true => exact follows_look (.inl rfl)
  | false =>
      refine follows_preflightOnce.bind fun result t hresult => ?_
      cases result with
      | error exc => exact hresult
      | ok _ => exact follows_look hresult

theorem follows_stopAutoKick :
    stopAutoKick.run.Follows lifecycle .startRemindersAfterReady Leaves .sweeping := by
  refine ⟨.isAutoKickRunning, fun running _ => ?_⟩
  cases running with
  | false => exact rfl
  | true =>
      refine ⟨.cancelAutoKick, fun _ _ => ⟨.autoKick, fun outcome => ?_⟩⟩
      cases outcome with
      | ok _ => exact rfl
      | error exc => cases exc <;> exact rfl

theorem follows_startRemindersAfterReady :
    startRemindersAfterReady.run.Follows lifecycle .startRemindersAfterReady Leaves .waking := by
  refine ⟨.beginReminders, fun _ _ => ⟨.waitUntilReady, fun outcome => ?_⟩⟩
  cases outcome with
  | error exc => exact rfl
  | ok _ =>
      refine ⟨.openDatabase, fun opened _ => ?_⟩
      cases opened with
      | error exc => exact rfl
      | ok _ =>
          refine ⟨.seedReminders, fun seeded _ => ?_⟩
          cases seeded with
          | error exc => exact rfl
          | ok _ =>
              refine ⟨.readGuildId, fun guildId _ => ?_⟩
              cases guildId with
              | error exc => exact rfl
              | ok guildId =>
                  refine ⟨.findGuild, fun guild _ => ?_⟩
                  cases guild with
                  | none => exact rfl
                  | some guild =>
                      -- whatever the scheduler comes to, the sweeps are stopped
                      refine ⟨.createAutoKick, fun _ _ => ⟨.runScheduler, fun outcome => ?_⟩⟩
                      refine follows_stopAutoKick.bind fun result t hresult => ?_
                      cases result <;> exact hresult

variable {count : ℕ}

/-- Where a part of `close` after the drain leaves off. -/
def StillDrained (result : Except Raised Unit) (t : Stage) : Prop :=
  match result with
  | .ok () => ∃ count, t = .drained count
  | .error _ => t.isPending = false

theorem follows_bestEffort {call : BotCall} (hcall : MayAwait .close t call)
    (hdrained : t.afterCall call = .drained count) :
    (bestEffort call).run.Follows lifecycle .close StillDrained t := by
  refine ⟨hcall, fun outcome => ?_⟩
  show Follows _ _ _ _ (t.afterCall call)
  rw [hdrained]
  cases outcome with
  | ok _ => exact ⟨count, rfl⟩
  | error exc =>
      cases exc
      case cancelled => exact rfl
      all_goals exact ⟨count, rfl⟩

theorem follows_drainSidecar :
    drainSidecar.run.Follows lifecycle .close StillDrained .working := by
  refine ⟨.signalExit, fun _ _ => ⟨.lookToDrain, fun sidecar _ => ?_⟩⟩
  match sidecar with
  | none => exact ⟨0, rfl⟩
  | some ⟨task, true⟩ => exact ⟨task + 1, rfl⟩
  | some ⟨task, false⟩ => exact follows_bestEffort .sidecar rfl

/-- The two awaits between the drain and the gateway. -/
theorem follows_cleanUpIf {call : BotCall} (present : Bool)
    (hcall : MayAwait .close (.drained count) call)
    (hdrained : (Stage.drained count).afterCall call = .drained count) :
    (cleanUpIf present call).run.Follows lifecycle .close StillDrained
      (.drained count) := by
  cases present with
  | true => exact follows_bestEffort hcall hdrained
  | false => exact ⟨count, rfl⟩

/-- Parts of `close` in a row: one that raises ends it. -/
theorem follows_bind_close {p rest : BotM Unit}
    (hp : p.run.Follows lifecycle .close StillDrained t)
    (hrest : ∀ count, rest.run.Follows lifecycle .close Leaves (.drained count)) :
    (p >>= fun _ => rest).run.Follows lifecycle .close Leaves t := by
  refine Follows.bind hp fun result t' hresult => ?_
  cases result with
  | error exc => exact hresult
  | ok _ =>
      obtain ⟨count, rfl⟩ := hresult
      exact hrest count

theorem follows_close : close.run.Follows lifecycle .close Leaves .working := by
  refine follows_bind_close follows_drainSidecar fun count => ?_
  refine ⟨.hasHealthRunner, fun present _ => ?_⟩
  refine follows_bind_close (follows_cleanUpIf present .cleanupHealth rfl) fun count => ?_
  refine ⟨.hasSiegeClient, fun present _ => ?_⟩
  refine follows_bind_close (follows_cleanUpIf present .closeSiege rfl) fun count => ?_
  exact ⟨.closeGateway, fun _ => rfl⟩

theorem program_follows (x : Routine) :
    x.program.run.Follows lifecycle x Leaves (lifecycle.start x) := by
  cases x with
  | onReady => exact follows_onReady
  | startRemindersAfterReady => exact follows_startRemindersAfterReady
  | close => exact follows_close

end Follows

end MomBot.Startup
