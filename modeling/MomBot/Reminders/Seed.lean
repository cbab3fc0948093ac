import Mathlib.Data.List.Infix
import MomBot.Python.Int
import MomBot.Reminders.Scheduler

/-!
# The seed of the reminder table

`_maybe_seed_reminders` fills an empty table on the first boot.  A table that was seeded
before the tank-week or the Siege reminders existed gets their rows from a data
migration, or from the function of the seed module that does the same through the ORM.

The table is a `ReminderStore`, whose UNIQUE clause on the names is a field; that a row
to be written passes the CHECK clauses is a field of `NewReminder`.  The audit columns
are left out: their values come from the database.
-/

namespace MomBot.Reminders

open Python

/-! ## The table -/

/-- A condition, from the text of its column. -/
def MonthCondition.ofText : String → MonthCondition
  | "tank_week_headsup" => .tankWeekHeadsup
  | "tank_week_end" => .tankWeekEnd
  | "siege_48h_headsup" => .siege48hHeadsup
  | "siege_24h_headsup" => .siege24hHeadsup
  | text => .other text

/-- A row of `reminders`, as it is loaded. -/
structure StoredReminder extends Reminder where
  name : String
  deliveryTarget : String
  deriving DecidableEq, Repr

/-- `ck_weekday`, `ck_month_condition`, `ck_delivery_target` and `ck_fire_time_no_seconds`. -/
def passesChecks (weekday : ℕ) (fireTimeUtc : Time)
    (monthCondition deliveryTarget : Option String) : Bool :=
  weekday ≤ 6 && fireTimeUtc.microseconds / microsecondsPerSecond % 60 = 0 &&
    monthCondition ∈ [none, some "tank_week_headsup", some "tank_week_end",
      some "siege_48h_headsup", some "siege_24h_headsup"] &&
    deliveryTarget ∈ [none, some "channel", some "dm"]

/-- What an INSERT gives.  A column that is not given has its default. -/
structure NewReminder where
  name : String
  channelId : ℤ
  weekday : ℕ
  fireTimeUtc : Time
  messageTemplate : String
  roleMentionId : Option ℤ
  monthCondition : Option String := none
  deliveryTarget : Option String := none
  checks : passesChecks weekday fireTimeUtc monthCondition deliveryTarget = true := by decide

/-- The row that the INSERT leaves; the server default of `delivery_target` is `channel`. -/
def NewReminder.load (r : NewReminder) (id : ℤ) : StoredReminder where
  id := id
  channelId := r.channelId
  weekday := r.weekday
  fireTimeUtc := r.fireTimeUtc
  messageTemplate := r.messageTemplate
  roleMentionId := r.roleMentionId
  monthCondition := r.monthCondition.map MonthCondition.ofText
  name := r.name
  deliveryTarget := r.deliveryTarget.getD "channel"

/-- `nextId` is the sequence that the ids come from. -/
structure ReminderStore where
  rows : List StoredReminder
  nextId : ℤ
  primaryKey : (rows.map fun row => row.id).Nodup
  uniqueName : (rows.map StoredReminder.name).Nodup
  fresh : ∀ row ∈ rows, row.id < nextId

namespace ReminderStore

/-- A new database. -/
def empty : ReminderStore := ⟨[], 1, List.nodup_nil, List.nodup_nil, List.forall_mem_nil _⟩

/-- The names that are taken. -/
def names (s : ReminderStore) : List String := s.rows.map StoredReminder.name

/-- INSERT of a row whose name is free. -/
def insert (s : ReminderStore) (r : NewReminder) (hname : r.name ∉ s.names) : ReminderStore where
  rows := s.rows ++ [r.load s.nextId]
  nextId := s.nextId + 1
  primaryKey := by
    rw [List.map_append]
    refine s.primaryKey.append (List.nodup_singleton _) ?_
    intro id hid hnew
    obtain rfl := List.mem_singleton.mp hnew
    obtain ⟨row, hrow, heq⟩ := List.mem_map.mp hid
    exact absurd heq (Int.ne_of_lt (s.fresh row hrow))
  uniqueName := by
    rw [List.map_append]
    refine s.uniqueName.append (List.nodup_singleton _) ?_
    intro name hold hnew
    obtain rfl := List.mem_singleton.mp hnew
    exact hname hold
  fresh := by
    intro row hrow
    rcases List.mem_append.mp hrow with hold | hnew
    · have := s.fresh row hold
      omega
    · obtain rfl := List.mem_singleton.mp hnew
      exact Int.lt_succ _

/-- `session.add_all` and COMMIT; `none` is `IntegrityError`, which rolls everything back. -/
def addAll (s : ReminderStore) : List NewReminder → Option ReminderStore
  | [] => some s
  | r :: rest => if h : r.name ∈ s.names then none else (s.insert r h).addAll rest

/-- An INSERT with a guard on the name: in SQL a WHERE NOT EXISTS, in the ORM a query for the row
before `session.add`. -/
def insertUnlessExists (s : ReminderStore) (r : NewReminder) : ReminderStore :=
  if h : r.name ∈ s.names then s else s.insert r h

/-- The row named `Hydra`. -/
def hydra (s : ReminderStore) : Option StoredReminder :=
  s.rows.find? fun row => row.name = "Hydra"

end ReminderStore

/-! ## `_maybe_seed_reminders` -/

/-- `HYDRA_TEMPLATE`. -/
def hydraTemplate : String :=
  ":dragon_face: **Hydra Reminder!** :dragon_face:\n" ++
    "There are less than 24 hours left to do your Hydra keys!\n" ++
    "Don't forget to hit the boss and help the clan!"

/-- `CHIMERA_TEMPLATE`. -/
def chimeraTemplate : String :=
  ":japanese_ogre: **Chimera Reminder!** :japanese_ogre:\n" ++
    "There are less than 24 hours left to do your Chimera attempts!\n" ++
    "Make sure to participate and help the clan!"

/-- `HYDRA_TANK_WEEK_HEADSUP_TEMPLATE`. -/
def hydraTankWeekHeadsupTemplate : String :=
  ":shield: **Tank Week Incoming!** :shield:\n" ++
    "Tank Week starts tomorrow — hit the bare minimum for the max chest, no more!\n" ++
    "Clear the top reward tier, then hold. Don't overhit the boss."

/-- `HYDRA_TANK_WEEK_END_TEMPLATE`. -/
def hydraTankWeekEndTemplate : String :=
  ":shield: **Hydra Tank Week — Final Hours!** :shield:\n" ++
    "Less than 24 hours left — make sure you've locked in the max chest, then stop!\n" ++
    "Bare minimum for the reward, nothing extra. Don't overhit."

/-- `SIEGE_48H_HEADSUP_TEMPLATE`. -/
def siege48hHeadsupTemplate : String :=
  ":crossed_swords: **Siege Incoming!** :crossed_swords:\n" ++
    "Siege starts in 48 hours — set your defences and check your post assignment now!\n" ++
    "An empty post is a free win for the other clan. Don't leave a hole in the line."

/-- `SIEGE_24H_HEADSUP_TEMPLATE`. -/
def siege24hHeadsupTemplate : String :=
  ":crossed_swords: **Siege — Final Day!** :crossed_swords:\n" ++
    "There are less than 24 hours until Siege — lock in your defences and confirm your post!\n" ++
    "Every missing player costs the clan points. Speak up now if you can't make it."

theorem clock_inRange (hour : Fin 24) (minute : Fin 60) :
    (hour.val * 60 + minute.val) * microsecondsPerMinute < microsecondsPerDay := by
  have hhour := hour.isLt
  have hminute := minute.isLt
  simp only [microsecondsPerDay, microsecondsPerMinute, microsecondsPerSecond]
  omega

/-- `datetime.time(hour, minute, 0)`. -/
def clock (hour : Fin 24) (minute : Fin 60) : Time where
  microseconds := (hour.val * 60 + minute.val) * microsecondsPerMinute
  inRange := clock_inRange hour minute

/-- The six rows, in the order in which they are added. -/
def seedReminders (channelId roleMentionId : ℤ) : List NewReminder :=
  [{ name := "Hydra"
     channelId := channelId
     weekday := 1
     fireTimeUtc := clock 7 0
     messageTemplate := hydraTemplate
     roleMentionId := some roleMentionId },
    { name := "Chimera"
      channelId := channelId
      weekday := 2
      fireTimeUtc := clock 12 0
      messageTemplate := chimeraTemplate
      roleMentionId := some roleMentionId },
    { name := "Hydra Tank Week Heads-up"
      channelId := channelId
      weekday := 1
      fireTimeUtc := clock 7 0
      messageTemplate := hydraTankWeekHeadsupTemplate
      roleMentionId := some roleMentionId
      monthCondition := some "tank_week_headsup" },
    { name := "Hydra Tank Week End"
      channelId := channelId
      weekday := 1
      fireTimeUtc := clock 7 0
      messageTemplate := hydraTankWeekEndTemplate
      roleMentionId := some roleMentionId
      monthCondition := some "tank_week_end" },
    { name := "Siege 48h Heads-up"
      channelId := channelId
      weekday := 6
      fireTimeUtc := clock 10 0
      messageTemplate := siege48hHeadsupTemplate
      roleMentionId := some roleMentionId
      monthCondition := some "siege_48h_headsup"
      deliveryTarget := some "channel" },
    { name := "Siege 24h Heads-up"
      channelId := channelId
      weekday := 0
      fireTimeUtc := clock 10 0
      messageTemplate := siege24hHeadsupTemplate
      roleMentionId := some roleMentionId
      monthCondition := some "siege_24h_headsup"
      deliveryTarget := some "channel" }]

/-- What leaves `_maybe_seed_reminders`.  `secret` is raised by `load_secret`; the next four are
`ConfigError`s of its own. -/
inductive SeedFailure where
  | secret (secretName : String)
  | notAnInteger (secretName raw : String)
  | notInGuild (guildId : ℤ)
  | channelNotFound (channelName guildName : String)
  | roleNotFound (roleName guildName : String)
  | integrityError
  deriving DecidableEq, Repr

/-- A guild in the bot's cache; channels and roles by name. -/
structure SeedGuild where
  name : String
  textChannels : List (String × ℤ)
  roles : List (String × ℤ)

/-- The Key Vault secrets and the guilds of the bot. -/
structure SeedEnvironment where
  loadSecret : String → Except SeedFailure String
  getGuild : ℤ → Option SeedGuild

/-- `_load_int_secret`. -/
def SeedEnvironment.loadIntSecret (env : SeedEnvironment) (secretName : String) :
    Except SeedFailure ℤ := do
  let raw ← env.loadSecret secretName
  match int raw with
  | none => throw (.notAnInteger secretName raw)
  | some n => return n

/-- `_resolve_role`. -/
def resolveRole (guild : SeedGuild) (roleName : String) : Except SeedFailure ℤ :=
  match guild.roles.lookup roleName with
  | none => .error (.roleNotFound roleName guild.name)
  | some role => .ok role

/-- The channel and the role that the rows are seeded with. -/
def resolveSeed (env : SeedEnvironment) : Except SeedFailure (ℤ × ℤ) := do
  let guildId ← env.loadIntSecret "guild-id"
  let channelName ← env.loadSecret "reminder-channel-name"
  let roleName ← env.loadSecret "reminder-mention-role-name"
  match env.getGuild guildId with
  | none => throw (.notInGuild guildId)
  | some guild =>
      match guild.textChannels.lookup channelName with
      | none => throw (.channelNotFound channelName guild.name)
      | some channelId => do
          let roleMentionId ← resolveRole guild roleName
          return (channelId, roleMentionId)

/-- `_maybe_seed_reminders`: a table with rows is left alone. -/
def maybeSeedReminders (env : SeedEnvironment) (s : ReminderStore) :
    Except SeedFailure Unit × ReminderStore :=
  if s.rows.length ≠ 0 then (.ok (), s)
  else
    match resolveSeed env with
    | .error failure => (.error failure, s)
    | .ok (channelId, roleMentionId) =>
        match s.addAll (seedReminders channelId roleMentionId) with
        | none => (.error .integrityError, s)
        | some s' => (.ok (), s')

/-! ## The two functions of the seed module -/

/-- `rows_to_insert` of `seed_siege_reminders`. -/
def siegeReminders (hydra : StoredReminder) : List NewReminder :=
  [{ name := "Siege 48h Heads-up"
     channelId := hydra.channelId
     weekday := 6
     fireTimeUtc := clock 10 0
     messageTemplate := siege48hHeadsupTemplate
     roleMentionId := hydra.roleMentionId
     monthCondition := some "siege_48h_headsup"
     deliveryTarget := some "channel" },
    { name := "Siege 24h Heads-up"
      channelId := hydra.channelId
      weekday := 0
      fireTimeUtc := clock 10 0
      messageTemplate := siege24hHeadsupTemplate
      roleMentionId := hydra.roleMentionId
      monthCondition := some "siege_24h_headsup"
      deliveryTarget := some "channel" }]

/-- `seed_siege_reminders`. -/
def seedSiegeReminders (s : ReminderStore) : ReminderStore :=
  match s.hydra with
  | none => s
  | some hydra => (siegeReminders hydra).foldl ReminderStore.insertUnlessExists s

/-- `rows_to_insert` of `seed_tank_week_reminders`. -/
def tankWeekReminders (hydra : StoredReminder) : List NewReminder :=
  [{ name := "Hydra Tank Week Heads-up"
     channelId := hydra.channelId
     weekday := 1
     fireTimeUtc := clock 7 0
     messageTemplate := hydraTankWeekHeadsupTemplate
     roleMentionId := hydra.roleMentionId
     monthCondition := some "tank_week_headsup" },
    { name := "Hydra Tank Week End"
      channelId := hydra.channelId
      weekday := 1
      fireTimeUtc := clock 7 0
      messageTemplate := hydraTankWeekEndTemplate
      roleMentionId := hydra.roleMentionId
      monthCondition := some "tank_week_end" }]

/-- `seed_tank_week_reminders`. -/
def seedTankWeekReminders (s : ReminderStore) : ReminderStore :=
  match s.hydra with
  | none => s
  | some hydra => (tankWeekReminders hydra).foldl ReminderStore.insertUnlessExists s

/-! ## The two migrations -/

/-- A TIME column that was written as text, `HH:MM:SS`. -/
def timeOfText (text : String) : Option Time := do
  match text.toList with
  | [h₁, h₂, ':', m₁, m₂, ':', '0', '0'] =>
      let hour ← int (String.ofList [h₁, h₂])
      let minute ← int (String.ofList [m₁, m₂])
      if h : hour.toNat < 24 ∧ minute.toNat < 60 then
        return clock ⟨hour.toNat, h.1⟩ ⟨minute.toNat, h.2⟩
      else none
  | _ => none

namespace TankWeekSeedRows

/-- `_HEADSUP_TEMPLATE`. -/
def headsupTemplate : String :=
  ":shield: **Tank Week Incoming!** :shield:\n" ++
    "Tank Week starts tomorrow — hit the bare minimum for the max chest, no more!\n" ++
    "Clear the top reward tier, then hold. Don't overhit the boss."

/-- `_TANK_END_TEMPLATE`. -/
def tankEndTemplate : String :=
  ":shield: **Hydra Tank Week — Final Hours!** :shield:\n" ++
    "Less than 24 hours left — make sure you've locked in the max chest, then stop!\n" ++
    "Bare minimum for the reward, nothing extra. Don't overhit."

/-- The time of both rows. -/
def fireTime : Time := (timeOfText "07:00:00").get (by decide)

/-- `upgrade` of `0005_tank_week_seed_rows`. -/
def upgrade (s : ReminderStore) : ReminderStore :=
  match s.hydra with
  | none => s
  | some result =>
      let s := s.insertUnlessExists
        { name := "Hydra Tank Week Heads-up"
          channelId := result.channelId
          weekday := 1
          fireTimeUtc := fireTime
          messageTemplate := headsupTemplate
          roleMentionId := result.roleMentionId
          monthCondition := some "tank_week_headsup"
          deliveryTarget := some "channel" }
      s.insertUnlessExists
        { name := "Hydra Tank Week End"
          channelId := result.channelId
          weekday := 1
          fireTimeUtc := fireTime
          messageTemplate := tankEndTemplate
          roleMentionId := result.roleMentionId
          monthCondition := some "tank_week_end"
          deliveryTarget := some "channel" }

end TankWeekSeedRows

namespace SiegeSeedRows

/-- `_HEADSUP_48H_TEMPLATE`. -/
def headsup48hTemplate : String :=
  ":crossed_swords: **Siege Incoming!** :crossed_swords:\n" ++
    "Siege starts in 48 hours — set your defences and check your post assignment now!\n" ++
    "An empty post is a free win for the other clan. Don't leave a hole in the line."

/-- `_HEADSUP_24H_TEMPLATE`. -/
def headsup24hTemplate : String :=
  ":crossed_swords: **Siege — Final Day!** :crossed_swords:\n" ++
    "There are less than 24 hours until Siege — lock in your defences and confirm your post!\n" ++
    "Every missing player costs the clan points. Speak up now if you can't make it."

/-- The time of both rows. -/
def fireTime : Time := (timeOfText "10:00:00").get (by decide)

/-- `upgrade` of `0007_siege_seed_rows`. -/
def upgrade (s : ReminderStore) : ReminderStore :=
  match s.hydra with
  | none => s
  | some result =>
      let s := s.insertUnlessExists
        { name := "Siege 48h Heads-up"
          channelId := result.channelId
          weekday := 6
          fireTimeUtc := fireTime
          messageTemplate := headsup48hTemplate
          roleMentionId := result.roleMentionId
          monthCondition := some "siege_48h_headsup"
          deliveryTarget := some "channel" }
      s.insertUnlessExists
        { name := "Siege 24h Heads-up"
          channelId := result.channelId
          weekday := 0
          fireTimeUtc := fireTime
          messageTemplate := headsup24hTemplate
          roleMentionId := result.roleMentionId
          monthCondition := some "siege_24h_headsup"
          deliveryTarget := some "channel" }

end SiegeSeedRows

end MomBot.Reminders
