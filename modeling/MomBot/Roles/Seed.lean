import MomBot.Roles.Spec
import MomBot.Settling

/-!
# `roles/seed.py`: the day-role map

`seedDayRoleMap` goes through the guilds of the client and the attack days, and brings the row
of each in line with the role of that name.  Here `day_role_map` has all of its columns;
`DayRoleMapTable.dayRoles` is what the role service reads of it.

The clock of the database says when the next statement is committed, counted by the statements
before it.  Log records are left out.
-/

namespace MomBot.Roles

open Settling

/-! ## Discord -/

/-- A role of a guild. -/
structure LiveRole where
  id : ℤ
  name : String
  deriving DecidableEq, Repr

/-- A guild with its roles, in the order of `guild.roles`. -/
structure LiveGuild where
  id : ℤ
  roles : List LiveRole
  deriving DecidableEq, Repr

/-- The client keeps its guilds by their ids. -/
structure Client where
  guilds : List LiveGuild
  distinctIds : (guilds.map LiveGuild.id).Nodup

/-- `_ATTACK_DAYS`. -/
def attackDays : List ℤ := [1, 2]

/-- `DAY_ROLE_NAME_TEMPLATE.format(day=day)`. -/
def dayRoleName (day : ℤ) : String := "Siege - Day " ++ toString day ++ " Attacker"

/-! ## The table -/

/-- A row of `day_role_map` with all its columns. -/
structure StoredDayRole extends DayRoleMap where
  roleDisplayName : String
  updatedAt : ℤ
  deriving DecidableEq, Repr

/-- What the primary key is on. -/
def StoredDayRole.key (row : StoredDayRole) : ℤ × ℤ := (row.guildId, row.dayNumber)

/-- The table `day_role_map`; its primary key is a field. -/
structure DayRoleMapTable where
  rows : List StoredDayRole
  primaryKey : (rows.map StoredDayRole.key).Nodup

namespace DayRoleMapTable

/-- The columns that the role service reads. -/
def dayRoles (t : DayRoleMapTable) : DayRoleTable where
  rows := t.rows.map fun row => row.toDayRoleMap
  primaryKey := by
    rw [List.map_map]
    exact t.primaryKey

/-- `scalar_one_or_none` on a guild and a day. -/
def select (t : DayRoleMapTable) (guildId day : ℤ) : Option StoredDayRole :=
  t.rows.find? fun row => row.key = (guildId, day)

/-- INSERT of a row whose key is new. -/
def insert (t : DayRoleMapTable) (row : StoredDayRole)
    (hnew : row.key ∉ t.rows.map StoredDayRole.key) : DayRoleMapTable where
  rows := t.rows ++ [row]
  primaryKey := by
    rw [List.map_append]
    refine t.primaryKey.append (List.nodup_singleton _) ?_
    intro key hold hadded
    obtain rfl := List.mem_singleton.mp hadded
    exact hnew hold

/-- The table with `row` in the place of the row of its key. -/
def update (t : DayRoleMapTable) (row : StoredDayRole) : DayRoleMapTable where
  rows := t.rows.map fun old => if old.key = row.key then row else old
  primaryKey := by
    rw [List.map_map]
    have hkeys : t.rows.map (StoredDayRole.key ∘ fun old => if old.key = row.key then row else old)
        = t.rows.map StoredDayRole.key := by
      refine List.map_congr_left fun old _ => ?_
      rw [Function.comp_apply]
      split
      next heq => exact heq.symm
      next => rfl
    rw [hkeys]
    exact t.primaryKey

variable {t : DayRoleMapTable} {guildId day : ℤ} {row other : StoredDayRole}

theorem notMem_of_select_eq_none (h : t.select guildId day = none) :
    (guildId, day) ∉ t.rows.map StoredDayRole.key := by
  intro hmem
  obtain ⟨row, hrow, hkey⟩ := List.mem_map.mp hmem
  exact absurd (List.find?_eq_none.mp h row hrow) (by simpa using hkey)

theorem mem_of_select_eq_some (h : t.select guildId day = some row) :
    row ∈ t.rows ∧ row.key = (guildId, day) :=
  ⟨List.mem_of_find?_eq_some h, by simpa using List.find?_some h⟩

theorem eq_of_key_eq (hrow : row ∈ t.rows) (hother : other ∈ t.rows) (h : row.key = other.key) :
    row = other :=
  List.inj_on_of_nodup_map t.primaryKey hrow hother h

/-- An insert leaves the rows of other keys alone. -/
theorem mem_insert_of_ne (hnew : row.key ∉ t.rows.map StoredDayRole.key)
    (h : other.key ≠ row.key) : other ∈ (t.insert row hnew).rows ↔ other ∈ t.rows := by
  have hne : other ≠ row := fun heq => h (congrArg StoredDayRole.key heq)
  simp [insert, hne]

/-- So does an update. -/
theorem mem_update_of_ne (h : other.key ≠ row.key) :
    other ∈ (t.update row).rows ↔ other ∈ t.rows := by
  constructor
  · intro hother
    obtain ⟨old, hold, rfl⟩ := List.mem_map.mp hother
    split at h
    next => exact absurd rfl h
    next hkey => rwa [if_neg hkey]
  · intro hother
    exact List.mem_map.mpr ⟨other, hother, if_neg h⟩

theorem mem_update (hkey : row.key ∈ t.rows.map StoredDayRole.key) : row ∈ (t.update row).rows := by
  obtain ⟨old, hold, heq⟩ := List.mem_map.mp hkey
  exact List.mem_map.mpr ⟨old, hold, if_pos heq⟩

end DayRoleMapTable

/-! ## The database -/

/-- A statement that a session has committed. -/
inductive Write where
  | insert (row : StoredDayRole)
  | update (row : StoredDayRole)
  deriving DecidableEq, Repr

/-- The table, and everything that was written to it so far. -/
structure Database where
  table : DayRoleMapTable
  writes : List Write

/-! ## The seed -/

/-- `_upsert_day_role`. -/
def upsertDayRole (clock : ℕ → ℤ) (db : Database) (guildId day roleId : ℤ) (roleName : String) :
    Database :=
  match hselect : db.table.select guildId day with
  | none =>
      let row : StoredDayRole := ⟨⟨guildId, day, roleId⟩, roleName, clock db.writes.length⟩
      ⟨db.table.insert row (DayRoleMapTable.notMem_of_select_eq_none hselect),
        db.writes ++ [.insert row]⟩
  | some existing =>
      if existing.discordRoleId ≠ roleId then
        -- the role was deleted and created again
        let row : StoredDayRole :=
          ⟨{ existing.toDayRoleMap with discordRoleId := roleId }, roleName,
            clock db.writes.length⟩
        ⟨db.table.update row, db.writes ++ [.update row]⟩
      else if existing.roleDisplayName ≠ roleName then
        let row : StoredDayRole :=
          ⟨existing.toDayRoleMap, roleName, clock db.writes.length⟩
        ⟨db.table.update row, db.writes ++ [.update row]⟩
      else db

/-- One round of the inner loop. -/
def seedDay (clock : ℕ → ℤ) (guild : LiveGuild) (db : Database) (day : ℤ) : Database :=
  match guild.roles.find? fun r => r.name = dayRoleName day with
  | none => db
  | some role => upsertDayRole clock db guild.id day role.id role.name

/-- `seed_day_role_map`. -/
def seedDayRoleMap (clock : ℕ → ℤ) (client : Client) (db : Database) : Database :=
  client.guilds.foldl (fun db guild => attackDays.foldl (seedDay clock guild) db) db

/-! ## One row -/

/-- What an upsert does: it brings the row of its key in line, or finds it so. -/
inductive Upserted (db : Database) (guildId day roleId : ℤ) (roleName : String) :
    Database → Prop
  | inserted {row : StoredDayRole} (hnew : row.key ∉ db.table.rows.map StoredDayRole.key) :
      row.key = (guildId, day) → row.discordRoleId = roleId → row.roleDisplayName = roleName →
      Upserted db guildId day roleId roleName
        ⟨db.table.insert row hnew, db.writes ++ [.insert row]⟩
  | updated {existing row : StoredDayRole} : existing ∈ db.table.rows →
      existing.key = (guildId, day) →
      existing.discordRoleId ≠ roleId ∨ existing.roleDisplayName ≠ roleName →
      row.key = (guildId, day) → row.discordRoleId = roleId → row.roleDisplayName = roleName →
      Upserted db guildId day roleId roleName ⟨db.table.update row, db.writes ++ [.update row]⟩
  | current {existing : StoredDayRole} : existing ∈ db.table.rows →
      existing.key = (guildId, day) → existing.discordRoleId = roleId →
      existing.roleDisplayName = roleName →
      Upserted db guildId day roleId roleName db

section Upsert

variable {clock : ℕ → ℤ} {db db' : Database} {guildId day roleId : ℤ} {roleName : String}
  {row : StoredDayRole}

theorem upsertDayRole_upserted (clock : ℕ → ℤ) (db : Database) (guildId day roleId : ℤ)
    (roleName : String) :
    Upserted db guildId day roleId roleName
      (upsertDayRole clock db guildId day roleId roleName) := by
  unfold upsertDayRole
  split
  next => exact .inserted _ rfl rfl rfl
  next existing hselect =>
    obtain ⟨hmem, hkey⟩ := DayRoleMapTable.mem_of_select_eq_some hselect
    split
    next hrole => exact .updated hmem hkey (.inl hrole) hkey rfl rfl
    next hrole =>
      rw [ne_eq, not_not] at hrole
      split
      next hname => exact .updated hmem hkey (.inr hname) hkey hrole rfl
      next hname =>
        rw [ne_eq, not_not] at hname
        exact .current hmem hkey hrole hname

/-- The rows of other keys stay as they are. -/
theorem Upserted.mem_of_ne (h : Upserted db guildId day roleId roleName db')
    (hne : row.key ≠ (guildId, day)) : row ∈ db'.table.rows ↔ row ∈ db.table.rows := by
  cases h with
  | inserted hnew hkey _ _ =>
      exact DayRoleMapTable.mem_insert_of_ne hnew fun heq => hne (heq.trans hkey)
  | updated _ _ _ hkey _ _ => exact DayRoleMapTable.mem_update_of_ne fun heq => hne (heq.trans hkey)
  | current => exact Iff.rfl

/-- The row of the key has the id and the name. -/
theorem Upserted.exists_row (h : Upserted db guildId day roleId roleName db') :
    ∃ row ∈ db'.table.rows, row.key = (guildId, day) ∧ row.discordRoleId = roleId ∧
      row.roleDisplayName = roleName := by
  cases h with
  | @inserted row hnew hkey hrole hname =>
      exact ⟨row, List.mem_append_right _ List.mem_cons_self, hkey, hrole, hname⟩
  | @updated existing row hmem hexisting _ hkey hrole hname =>
      refine ⟨row, DayRoleMapTable.mem_update ?_, hkey, hrole, hname⟩
      exact List.mem_map.mpr ⟨existing, hmem, hexisting.trans hkey.symm⟩
  | @current existing hmem hkey hrole hname => exact ⟨existing, hmem, hkey, hrole, hname⟩

/-- Where the row has the id and the name, nothing is written. -/
theorem Upserted.eq_of_current (h : Upserted db guildId day roleId roleName db')
    (hrow : row ∈ db.table.rows) (hkey : row.key = (guildId, day))
    (hrole : row.discordRoleId = roleId) (hname : row.roleDisplayName = roleName) : db' = db := by
  cases h with
  | inserted hnew hadded _ _ =>
      exact absurd (List.mem_map.mpr ⟨row, hrow, hkey.trans hadded.symm⟩) hnew
  | updated hmem hexisting hdiffers _ _ _ =>
      obtain rfl := DayRoleMapTable.eq_of_key_eq hmem hrow (hexisting.trans hkey.symm)
      exact absurd (hdiffers.resolve_left fun hne => hne hrole) fun hne => hne hname
  | current => rfl

end Upsert

/-! ## The loops -/

/-- The first role of a name, as the guild lists them. -/
def IsFirstNamed (name : String) (role : LiveRole) (roles : List LiveRole) : Prop :=
  ∃ before after, roles = before ++ role :: after ∧ role.name = name ∧
    ∀ other ∈ before, other.name ≠ name

theorem find?_name_eq_some_iff {name : String} {role : LiveRole} {roles : List LiveRole} :
    roles.find? (fun r => r.name = name) = some role ↔ IsFirstNamed name role roles := by
  rw [List.find?_eq_some_iff_append]
  constructor
  · rintro ⟨hname, before, after, rfl, hbefore⟩
    exact ⟨before, after, rfl, by simpa using hname, by simpa using hbefore⟩
  · rintro ⟨before, after, rfl, hname, hbefore⟩
    exact ⟨by simpa using hname, before, after, rfl, by simpa using hbefore⟩

/-- A task of the two loops: a guild and a day. -/
abbrev SeedTask := LiveGuild × ℤ

/-- The rounds of the seed: every guild, and in it every day. -/
def seedTasks (client : Client) : List SeedTask :=
  client.guilds.flatMap fun guild => attackDays.map fun day => (guild, day)

/-- The key of its row. -/
def taskKey (task : SeedTask) : ℤ × ℤ := (task.1.id, task.2)

/-- The row of the task has the id and the name of its role, if there is a role. -/
def Mapped (task : SeedTask) (db : Database) : Prop :=
  ∀ role, IsFirstNamed (dayRoleName task.2) role task.1.roles →
    ∃ row ∈ db.table.rows, row.key = taskKey task ∧ row.discordRoleId = role.id ∧
      row.roleDisplayName = role.name

variable {clock : ℕ → ℤ} {client : Client} {db : Database}

theorem seedDayRoleMap_eq_foldl (clock : ℕ → ℤ) (client : Client) (db : Database) :
    seedDayRoleMap clock client db =
      (seedTasks client).foldl (fun db task => seedDay clock task.1 db task.2) db := by
  rw [seedTasks, List.foldl_flatMap, seedDayRoleMap]
  simp only [List.foldl_map]

theorem mem_seedTasks {task : SeedTask} :
    task ∈ seedTasks client ↔ task.1 ∈ client.guilds ∧ task.2 ∈ attackDays := by
  simp only [seedTasks, List.mem_flatMap, List.mem_map]
  constructor
  · rintro ⟨guild, hguild, day, hday, rfl⟩
    exact ⟨hguild, hday⟩
  · rintro ⟨hguild, hday⟩
    exact ⟨task.1, hguild, task.2, hday, rfl⟩

/-- No two tasks share a row. -/
theorem pairwise_seedTasks :
    (seedTasks client).Pairwise fun task other => taskKey task ≠ taskKey other := by
  rw [seedTasks, List.pairwise_flatMap]
  constructor
  · intro guild _
    rw [List.pairwise_map]
    have hdays : attackDays.Nodup := by decide
    exact hdays.imp fun hne heq => hne (congrArg Prod.snd heq)
  · have hids := client.distinctIds
    rw [List.Nodup, List.pairwise_map] at hids
    refine hids.imp fun hne task htask other hother heq => ?_
    obtain ⟨day, -, rfl⟩ := List.mem_map.mp htask
    obtain ⟨day', -, rfl⟩ := List.mem_map.mp hother
    exact hne (congrArg Prod.fst heq)

/-- **Step lemma.**  A round upserts the row of its task, or there is no role for it. -/
theorem seedDay_cases (clock : ℕ → ℤ) (task : SeedTask) (db : Database) :
    ((∀ role ∈ task.1.roles, role.name ≠ dayRoleName task.2) ∧
        seedDay clock task.1 db task.2 = db) ∨
      ∃ role, IsFirstNamed (dayRoleName task.2) role task.1.roles ∧
        Upserted db task.1.id task.2 role.id role.name (seedDay clock task.1 db task.2) := by
  unfold seedDay
  split
  next hnone => exact .inl ⟨by simpa using hnone, rfl⟩
  next role hrole =>
    exact .inr ⟨role, find?_name_eq_some_iff.mp hrole, upsertDayRole_upserted clock db _ _ _ _⟩

theorem IsFirstNamed.mem {name : String} {role : LiveRole} {roles : List LiveRole}
    (h : IsFirstNamed name role roles) : role ∈ roles ∧ role.name = name := by
  obtain ⟨before, after, rfl, hname, -⟩ := h
  exact ⟨List.mem_append_right _ List.mem_cons_self, hname⟩

theorem IsFirstNamed.unique {name : String} {role other : LiveRole} {roles : List LiveRole}
    (h : IsFirstNamed name role roles) (h' : IsFirstNamed name other roles) : role = other := by
  rw [← find?_name_eq_some_iff] at h h'
  exact Option.some.inj (h.symm.trans h')

/-- The loops settle one row at a time. -/
theorem settles_seedDay (clock : ℕ → ℤ) :
    Settles (fun db (task : SeedTask) => seedDay clock task.1 db task.2)
      (fun task other => taskKey task ≠ taskKey other) Mapped where
  settles db task role hrole := by
    obtain ⟨hmissing, -⟩ | ⟨first, hfirst, hupserted⟩ := seedDay_cases clock task db
    · exact absurd hrole.mem.2 (hmissing role hrole.mem.1)
    · obtain rfl := hrole.unique hfirst
      exact hupserted.exists_row
  keeps db task other hne hmapped := by
    obtain ⟨-, hidle⟩ | ⟨_, -, hupserted⟩ := seedDay_cases clock other db
    · rwa [hidle]
    · intro role hrole
      obtain ⟨row, hrow, hkey, hfields⟩ := hmapped role hrole
      exact ⟨row, (hupserted.mem_of_ne fun heq => hne (hkey.symm.trans heq)).mpr hrow, hkey,
        hfields⟩
  idle db task hmapped := by
    obtain ⟨-, hidle⟩ | ⟨role, hrole, hupserted⟩ := seedDay_cases clock task db
    · exact hidle
    · obtain ⟨row, hrow, hkey, hid, hname⟩ := hmapped role hrole
      exact hupserted.eq_of_current hrow hkey hid hname

/-! ## What the seed leaves -/

/-- A key whose role exists is one that the seed writes. -/
def HasDayRole (client : Client) (key : ℤ × ℤ) : Prop :=
  ∃ guild ∈ client.guilds, ∃ day ∈ attackDays, key = (guild.id, day) ∧
    ∃ role ∈ guild.roles, role.name = dayRoleName day

/-- The rows of the roles that exist hold their ids and names, and the others are as before. -/
structure Seeded (client : Client) (before after : DayRoleMapTable) : Prop where
  mapped : ∀ guild ∈ client.guilds, ∀ day ∈ attackDays, ∀ role,
    IsFirstNamed (dayRoleName day) role guild.roles →
    ∃ row ∈ after.rows, row.key = (guild.id, day) ∧ row.discordRoleId = role.id ∧
      row.roleDisplayName = role.name
  others : ∀ row, ¬ HasDayRole client row.key → (row ∈ after.rows ↔ row ∈ before.rows)

/-- **Run lemma.**  At the end every task is in order. -/
theorem seedDayRoleMap_mapped (clock : ℕ → ℤ) (client : Client) (db : Database) :
    ∀ task ∈ seedTasks client, Mapped task (seedDayRoleMap clock client db) := by
  rw [seedDayRoleMap_eq_foldl]
  exact (settles_seedDay clock).foldl_settled pairwise_seedTasks

theorem mem_seedDayRoleMap_of_not {row : StoredDayRole} (h : ¬ HasDayRole client row.key) :
    row ∈ (seedDayRoleMap clock client db).table.rows ↔ row ∈ db.table.rows := by
  rw [seedDayRoleMap_eq_foldl]
  -- a round that writes is about a role that exists, so its key is another one
  refine List.foldlRecOn
    (motive := fun after : Database => row ∈ after.table.rows ↔ row ∈ db.table.rows)
    (seedTasks client) _ Iff.rfl fun current hcurrent task htask => ?_
  obtain ⟨hguild, hday⟩ := mem_seedTasks.mp htask
  obtain ⟨-, hidle⟩ | ⟨role, hrole, hupserted⟩ := seedDay_cases clock task current
  · rwa [hidle]
  · refine (hupserted.mem_of_ne fun hkey => h ?_).trans hcurrent
    exact ⟨task.1, hguild, task.2, hday, hkey, role, hrole.mem⟩

theorem seedDayRoleMap_seeded (clock : ℕ → ℤ) (client : Client) (db : Database) :
    Seeded client db.table (seedDayRoleMap clock client db).table where
  mapped guild hguild day hday :=
    seedDayRoleMap_mapped clock client db (guild, day) (mem_seedTasks.mpr ⟨hguild, hday⟩)
  others _ := mem_seedDayRoleMap_of_not

/-- Whatever the table holds, the seed brings exactly the rows of the existing roles in line, and
a second one neither inserts nor updates. -/
theorem seedDayRoleMap_exact (client : Client) (db : Database) (clock clock' : ℕ → ℤ) :
    Seeded client db.table (seedDayRoleMap clock client db).table ∧
      seedDayRoleMap clock' client (seedDayRoleMap clock client db) =
        seedDayRoleMap clock client db := by
  refine ⟨seedDayRoleMap_seeded clock client db, ?_⟩
  rw [seedDayRoleMap_eq_foldl clock']
  exact (settles_seedDay clock').foldl_idle (seedDayRoleMap_mapped clock client db)

/-- The first day's role was created again, and twice; the second day's is gone. -/
def renamedClient : Client where
  guilds :=
    [⟨1, [⟨10, "Siege - Day 1 Attacker"⟩, ⟨11, "Siege - Day 1 Attacker"⟩, ⟨20, "Raiders"⟩]⟩]
  distinctIds := by decide

/-- Rows of an earlier seed, one of them about another role. -/
def staleTable : DayRoleMapTable where
  rows := [⟨⟨1, 1, 9⟩, "Siege - Day 1 Attacker", 5⟩, ⟨⟨1, 2, 20⟩, "Siege - Day 2 Attacker", 5⟩]
  primaryKey := by decide

example : (seedDayRoleMap (fun _ => 6) renamedClient ⟨staleTable, []⟩).table.rows =
    [⟨⟨1, 1, 10⟩, "Siege - Day 1 Attacker", 6⟩, ⟨⟨1, 2, 20⟩, "Siege - Day 2 Attacker", 5⟩] := by
  decide +kernel

/-- The role service finds the first role of the name. -/
theorem Seeded.lookup_dayMap {before after : DayRoleMapTable} (h : Seeded client before after)
    {w : World} (hworld : w.dayRoleMap = after.dayRoles) {guild : LiveGuild} {day : ℤ}
    {role : LiveRole} (hguild : guild ∈ client.guilds) (hday : day ∈ attackDays)
    (hrole : IsFirstNamed (dayRoleName day) role guild.roles) :
    (w.dayMap guild.id).lookup day = some role.id := by
  obtain ⟨row, hrow, hkey, hid, -⟩ := h.mapped guild hguild day hday role hrole
  obtain ⟨hguildId, hdayNumber⟩ := Prod.mk.inj hkey
  apply lookup_of_mem (w.dayMap_nodup guild.id)
  refine List.mem_map.mpr ⟨row.toDayRoleMap, List.mem_filter.mpr ⟨?_, ?_⟩, ?_⟩
  · rw [hworld]
    exact List.mem_map_of_mem hrow
  · exact decide_eq_true hguildId
  · rw [hdayNumber, hid]

end MomBot.Roles
