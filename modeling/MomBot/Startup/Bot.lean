import MomBot.Cooperative.Handlers
import MomBot.Cooperative.Interleave
import MomBot.Roles.Hierarchy

/-!
# `main.py`: what runs besides the commands

Three coroutines of the client live next to each other.  Discord dispatches `on_ready` at every
(re)connect: it seeds the day-role map, runs the preflight and starts the sidecar, and awaits
nothing on the way.  `setup_hook` leaves the task of `_start_reminders_after_ready`, which starts
the sweeps and goes on as the reminder scheduler.  `close` takes the sidecar down before the
gateway.

Servers are numbered in the order in which they are started.  `Bot` starts where `setup_hook` has
returned; of the database it has the table that `on_ready` writes.
-/

namespace MomBot.Startup

open Cooperative Coroutine
open Roles (Database LiveGuild RankedGuild seedDay seedTasks)

/-! ## The process -/

/-- Whether a task has ended. -/
inductive TaskState where
  | running
  | done
  deriving DecidableEq, Repr

/-- A `uvicorn.Server` with the task of its `serve`. -/
structure Server where
  shouldExit : Bool
  task : TaskState
  deriving DecidableEq, Repr

/-- The guilds of the client, kept by their ids. -/
structure Gateway where
  guilds : List RankedGuild
  distinctIds : (guilds.map RankedGuild.id).Nodup

/-- `self.get_guild`. -/
def Gateway.getGuild (g : Gateway) (guildId : ℤ) : Option RankedGuild :=
  g.guilds.find? fun guild => guild.id = guildId

/-- What `seed_day_role_map` sees of the guilds. -/
def Gateway.client (g : Gateway) : Roles.Client where
  guilds := g.guilds.map fun guild => ⟨guild.id, guild.roles.map fun role => role.toLiveRole⟩
  distinctIds := by
    rw [List.map_map]
    exact g.distinctIds

/-- What the process finds around it. -/
structure Surroundings where
  gateway : Gateway
  /-- `int(load_secret("guild-id"))`, `none` where it raises. -/
  guildId : Option ℤ
  /-- `load_secret("discord-bot-api-key")`. -/
  apiKey : Option String
  /-- The sessions of the seed that go through; `none` for all. -/
  sessions : Option ℕ
  clock : ℕ → ℤ
  /-- Factories can be built, and queries answer. -/
  databaseAnswers : Bool
  remindersSeed : Bool
  appBuilds : Bool

/-- A preflight that was tried: its guild and the map it read, `none` where the database gave
none. -/
structure PreflightRun where
  guild : RankedGuild
  dayMap : Option (List (ℤ × ℤ))
  deriving DecidableEq, Repr

/-- The client and what its attributes refer to. -/
structure Bot where
  around : Surroundings
  dayRoleMap : Database
  preflightDone : Bool
  preflights : List PreflightRun
  /-- All servers that were ever started. -/
  servers : List Server
  sidecarTask : Option ℕ
  sidecarServer : Option ℕ
  /-- The task that `setup_hook` created has taken its first step. -/
  remindersBegun : Bool
  autoKickTask : Option TaskState
  hasHealthRunner : Bool
  hasSiegeClient : Bool

namespace Bot

/-- The task of the `k`-th server is not done. -/
def Running (w : Bot) (k : ℕ) : Prop := (w.servers[k]?).map Server.task = some .running

/-- The `k`-th server has been told to exit. -/
def Told (w : Bot) (k : ℕ) : Prop := (w.servers[k]?).map Server.shouldExit = some true

instance (w : Bot) (k : ℕ) : Decidable (w.Running k) := inferInstanceAs (Decidable (_ = _))

instance (w : Bot) (k : ℕ) : Decidable (w.Told k) := inferInstanceAs (Decidable (_ = _))

end Bot

/-! ## Effects -/

/-- A task as `done()` shows it. -/
structure SeenTask where
  index : ℕ
  done : Bool
  deriving DecidableEq, Repr

/-- `serve` builds the server, keeps it and creates its task. -/
inductive BotOp where
  | seedDayRoleMap
  | isPreflightDone
  | guildId
  | getGuild (guildId : ℤ)
  | runPreflight (guild : RankedGuild)
  | setPreflightDone
  | sidecarTask
  | apiKey
  | buildApp (apiKey : String) (guild : RankedGuild)
  | serve
  | beginReminders
  | openDatabase
  | seedReminders
  | createAutoKick
  | isAutoKickRunning
  | cancelAutoKick
  | signalExit
  | hasHealthRunner
  | hasSiegeClient

/-- A secret may be missing, and what uses the database or builds the application may raise. -/
def BotOp.Res : BotOp → Type
  | guildId => Except Raised ℤ
  | getGuild _ => Option RankedGuild
  | apiKey => Except Raised String
  | runPreflight _ | buildApp _ _ | openDatabase | seedReminders => Except Raised Unit
  | sidecarTask => Option SeenTask
  | isPreflightDone | isAutoKickRunning | hasHealthRunner | hasSiegeClient => Bool
  | seedDayRoleMap | setPreflightDone | serve | beginReminders | createAutoKick | cancelAutoKick
  | signalExit => Unit

/-- `sidecar` and `autoKick` await a task, `runScheduler` is the reminder scheduler itself. -/
inductive BotCall where
  | waitUntilReady
  | runScheduler
  | autoKick
  | sidecar (task : ℕ)
  | cleanupHealth
  | closeSiege
  | closeGateway
  deriving DecidableEq, Repr

/-- Everything that the routines ask. -/
abbrev botEffects : Effects :=
  ⟨BotOp, BotOp.Res, BotCall, fun _ => Outcome⟩

/-- A routine, or a part of one, that may raise. -/
abbrev BotM := ExceptT Raised (Coroutine botEffects)

/-- An operation that does not raise. -/
def ask (o : BotOp) : BotM o.Res :=
  ExceptT.lift (perform (E := botEffects) o)

/-- `int(load_secret("guild-id"))`. -/
def guildIdSecret : BotM ℤ := ExceptT.mk (perform (E := botEffects) .guildId)

/-- `load_secret("discord-bot-api-key")`. -/
def apiKeySecret : BotM String := ExceptT.mk (perform (E := botEffects) .apiKey)

/-- `build_app`. -/
def buildApp (apiKey : String) (guild : RankedGuild) : BotM Unit :=
  ExceptT.mk (perform (E := botEffects) (.buildApp apiKey guild))

/-- The session factory is made. -/
def openDatabase : BotM Unit := ExceptT.mk (perform (E := botEffects) .openDatabase)

/-- `_maybe_seed_reminders`. -/
def seedReminders : BotM Unit := ExceptT.mk (perform (E := botEffects) .seedReminders)

/-- An await, which raises what it was answered. -/
def awaitCall (call : BotCall) : BotM Unit :=
  ExceptT.mk (.await (E := botEffects) call .done)

/-- `try` with a `finally`: what `cleanup` raises takes the place of what `body` came to. -/
def finallyDo (body cleanup : BotM Unit) : BotM Unit :=
  ExceptT.mk (body.run >>= fun result => cleanup.run >>= fun
    | .ok () => .done result
    | .error exc => .done (.error exc))

/-! ## `on_ready` -/

/-- `_start_sidecar`. -/
def startSidecar : BotM Unit := do
  let apiKey ← apiKeySecret
  let guildId ← guildIdSecret
  match ← ask (.getGuild guildId) with
  | none => return ()
  | some guild => do
      buildApp apiKey guild
      ask .serve

/-- `_sidecar_task` is `None` or done, or the server is left alone. -/
def startUnlessRunning : Option SeenTask → BotM Unit
  | some ⟨_, false⟩ => return ()
  | some ⟨_, true⟩ | none => startSidecar

/-- The preflight of `on_ready`.  The look at the secret is outside the `try`. -/
def preflightOnce : BotM Unit := do
  let guildId ← guildIdSecret
  match ← ask (.getGuild guildId) with
  | none => return ()
  | some guild => do
      let result : Except Raised Unit ← ask (.runPreflight guild)
      match result with
      | .ok () => ask .setPreflightDone
      | .error _ => return ()

/-- `on_ready`. -/
def onReady : BotM Unit := do
  -- the `try` around the seed lets nothing out: it awaits nothing that could be cancelled
  ask .seedDayRoleMap
  let preflightDone : Bool ← ask .isPreflightDone
  if preflightDone then pure () else preflightOnce
  let sidecar ← ask .sidecarTask
  startUnlessRunning sidecar

/-! ## `_start_reminders_after_ready` -/

/-- The `finally` around the scheduler.  It awaits the task that it has cancelled. -/
def stopAutoKick : BotM Unit := do
  let running : Bool ← ask .isAutoKickRunning
  if running then do
    ask .cancelAutoKick
    catching Raised.isCancelled (awaitCall .autoKick) fun _ => return ()
  else return ()

/-- `_start_reminders_after_ready`, less its log records: the outer `except`s raise again. -/
def startRemindersAfterReady : BotM Unit := do
  ask .beginReminders
  awaitCall .waitUntilReady
  openDatabase
  seedReminders
  let guildId ← guildIdSecret
  match ← ask (.getGuild guildId) with
  | none => throw .unexpected
  | some _ => do
      ask .createAutoKick
      finallyDo (awaitCall .runScheduler) stopAutoKick

/-! ## `close` -/

/-- An await of `close` whose failure is only logged. -/
def bestEffort (call : BotCall) : BotM Unit :=
  catching Raised.isException (awaitCall call) fun _ => return ()

/-- The server is awaited unless it is done. -/
def awaitUnlessDone : Option SeenTask → BotM Unit
  | some ⟨task, false⟩ => bestEffort (.sidecar task)
  | some ⟨_, true⟩ | none => return ()

/-- The part of `close` about the sidecar. -/
def drainSidecar : BotM Unit := do
  ask .signalExit
  let sidecar ← ask .sidecarTask
  awaitUnlessDone sidecar

/-- An attribute that is not `None` is cleaned up. -/
def cleanUpIf (present : Bool) (call : BotCall) : BotM Unit :=
  if present then bestEffort call else return ()

/-- `close`. -/
def close : BotM Unit := do
  drainSidecar
  let healthRunner ← ask .hasHealthRunner
  cleanUpIf healthRunner .cleanupHealth
  let siegeClient ← ask .hasSiegeClient
  cleanUpIf siegeClient .closeSiege
  awaitCall .closeGateway

/-! ## The event loop -/

/-- The routines that run as tasks. -/
inductive Routine where
  | onReady
  | startRemindersAfterReady
  | close
  deriving DecidableEq, Repr

/-- What a task runs. -/
def Routine.program : Routine → BotM Unit
  | onReady => Startup.onReady
  | startRemindersAfterReady => Startup.startRemindersAfterReady
  | close => Startup.close

namespace Bot

/-- The seed, or what it has committed before its database failed. -/
def seeded (w : Bot) : Database :=
  let tasks := seedTasks w.around.gateway.client
  ((w.around.sessions.elim tasks fun n => tasks.take n).foldl
    (fun db task => seedDay w.around.clock task.1 db task.2) w.dayRoleMap)

/-- The map of a guild, where a session can be opened and the query answers. -/
def loadDayMap (w : Bot) (guildId : ℤ) : Option (List (ℤ × ℤ)) :=
  if w.around.databaseAnswers then some (w.dayRoleMap.table.dayRoles.dayMap guildId) else none

/-- `_sidecar_task`, as a look shows it. -/
def seenTask (w : Bot) : Option SeenTask :=
  w.sidecarTask.map fun k => ⟨k, ¬ w.Running k⟩

/-- The operations on the client; a query that finds no database raises. -/
def exec : (o : BotOp) → Bot → o.Res × Bot
  | .seedDayRoleMap, w => ((), { w with dayRoleMap := w.seeded })
  | .isPreflightDone, w => (w.preflightDone, w)
  | .guildId, w => (w.around.guildId.elim (.error .unexpected) .ok, w)
  | .getGuild guildId, w => (w.around.gateway.getGuild guildId, w)
  | .runPreflight guild, w =>
      (match w.loadDayMap guild.id with
        | some dayMap => (Roles.runPreflight guild dayMap).2.mapError fun _ => .unexpected
        | none => .error .unexpected,
        { w with preflights := w.preflights ++ [⟨guild, w.loadDayMap guild.id⟩] })
  | .setPreflightDone, w => ((), { w with preflightDone := true })
  | .sidecarTask, w => (w.seenTask, w)
  | .apiKey, w => (w.around.apiKey.elim (.error .unexpected) .ok, w)
  | .buildApp _ _, w => (if w.around.appBuilds then .ok () else .error .unexpected, w)
  | .serve, w =>
      ((), { w with
        servers := w.servers ++ [⟨false, .running⟩]
        sidecarServer := some w.servers.length
        sidecarTask := some w.servers.length })
  | .beginReminders, w => ((), { w with remindersBegun := true })
  | .openDatabase, w => (if w.around.databaseAnswers then .ok () else .error .unexpected, w)
  | .seedReminders, w => (if w.around.remindersSeed then .ok () else .error .unexpected, w)
  | .createAutoKick, w => ((), { w with autoKickTask := some .running })
  | .isAutoKickRunning, w => (decide (w.autoKickTask = some .running), w)
  -- a request: the task ends in its own time
  | .cancelAutoKick, w => ((), w)
  | .signalExit, w =>
      ((), { w with
        servers := w.sidecarServer.elim w.servers fun k =>
          w.servers.modify k fun server => { server with shouldExit := true } })
  | .hasHealthRunner, w => (w.hasHealthRunner, w)
  | .hasSiegeClient, w => (w.hasSiegeClient, w)

/-- Servers and sweeps come to their ends, uvicorn reacts to signals of its own, and the
surroundings change at will. -/
structure Elsewhere (w w' : Bot) : Prop where
  running : ∀ k, w'.Running k → w.Running k
  told : ∀ k, w.Told k → w'.Told k
  servers : w'.servers.length = w.servers.length
  autoKick : w'.autoKickTask = w.autoKickTask ∨
    w.autoKickTask = some .running ∧ w'.autoKickTask = some .done
  same : w'.preflightDone = w.preflightDone ∧ w'.preflights = w.preflights ∧
    w'.sidecarTask = w.sidecarTask ∧ w'.sidecarServer = w.sidecarServer ∧
    w'.remindersBegun = w.remindersBegun

/-- A task is awaited until it is done, also by a task that is cancelled meanwhile. -/
def Over (w : Bot) : BotCall → Prop
  | .sidecar task => ¬ w.Running task
  | .autoKick => w.autoKickTask ≠ some .running
  | .waitUntilReady | .runScheduler | .cleanupHealth | .closeSiege | .closeGateway => True

/-- `setup_hook` has created one task. -/
def MayStart (w : Bot) : Routine → Prop
  | .startRemindersAfterReady => w.remindersBegun = false
  | .onReady | .close => True

/-- `setup_hook` has returned. -/
structure Fresh (w : Bot) : Prop where
  preflightDone : w.preflightDone = false
  preflights : w.preflights = []
  servers : w.servers = []
  sidecarTask : w.sidecarTask = none
  sidecarServer : w.sidecarServer = none
  remindersBegun : w.remindersBegun = false
  autoKickTask : w.autoKickTask = none

instance (w : Bot) (call : BotCall) : Decidable (w.Over call) :=
  match call with
  | .sidecar task => inferInstanceAs (Decidable (¬ w.Running task))
  | .autoKick => inferInstanceAs (Decidable (w.autoKickTask ≠ some .running))
  | .waitUntilReady | .runScheduler | .cleanupHealth | .closeSiege | .closeGateway =>
      .isTrue trivial

instance (w : Bot) (x : Routine) : Decidable (w.MayStart x) :=
  match x with
  | .startRemindersAfterReady => inferInstanceAs (Decidable (w.remindersBegun = false))
  | .onReady | .close => .isTrue trivial

end Bot

/-- The client's routines. -/
def bot : Concurrent botEffects Bot Routine (Except Raised Unit) where
  machine := { exec := Bot.exec, issue := fun _ w => w, complete := fun _ _ w => w }
  program x := x.program.run
  outside := Bot.Elsewhere

/-- A moment of a run of the bot. -/
abbrev BotConfig (ι : Type) := Config botEffects Bot ι Routine (Except Raised Unit)

/-- An event of a run of the bot. -/
abbrev BotEvent (ι : Type) := Event botEffects Bot ι Routine

variable {ι : Type} [DecidableEq ι]

/-- A call that is answered is over, and a routine that starts may. -/
def InOrder (c : BotConfig ι) : BotEvent ι → Prop
  | .spawn _ x => c.shared.MayStart x
  | .answer i _ =>
      match c.task i with
      | .awaiting _ call _ => c.shared.Over call
      | _ => True
  | _ => True

/-- The event loop switches where a routine awaits. -/
def Scheduled (c : BotConfig ι) (event : BotEvent ι) : Prop :=
  Concurrent.SwitchesAtAwaits c event ∧
    (event.isOutside = true → ∀ i, (c.task i).isReady = false) ∧ InOrder c event

instance (c : BotConfig ι) (event : BotEvent ι) : Decidable (InOrder c event) :=
  match event with
  | .spawn _ x => inferInstanceAs (Decidable (c.shared.MayStart x))
  | .answer i _ =>
      match h : c.task i with
      | .awaiting _ call _ =>
          decidable_of_iff (c.shared.Over call) (by rw [InOrder, h])
      | .idle => .isTrue (by rw [InOrder, h]; trivial)
      | .ready _ _ => .isTrue (by rw [InOrder, h]; trivial)
  | .op _ | .issue _ | .finish _ | .outside _ => .isTrue trivial

instance [Fintype ι] (c : BotConfig ι) (event : BotEvent ι) : Decidable (Scheduled c event) :=
  inferInstanceAs (Decidable (_ ∧ (_ → _) ∧ _))

end MomBot.Startup
