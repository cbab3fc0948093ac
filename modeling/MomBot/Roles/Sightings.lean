import MomBot.History
import MomBot.Roles.Seed

/-!
# The day roles over the life of the bot

`on_ready` seeds the table each time the gateway is ready, and a seed that meets a database error is
cut off where it is.  In between, roles are renamed, deleted and created again.  Whatever the seeds
were, the row of a guild and a day is what the last of them to come to a role of that name has
found, and this is the role that an assign of the day looks up (`lookup_iff_lastSighting`).
-/

namespace MomBot.Roles

open History

/-- A role, found for a guild and a day. -/
structure Sighting where
  key : ℤ × ℤ
  role : LiveRole
  deriving DecidableEq, Repr

/-- What a row says was found. -/
def StoredDayRole.sighting (row : StoredDayRole) : Sighting :=
  ⟨row.key, row.discordRoleId, row.roleDisplayName⟩

/-- What a round of the seed finds. -/
def sightingOf (task : SeedTask) : Option Sighting :=
  (task.1.roles.find? fun r => r.name = dayRoleName task.2).map fun role => ⟨taskKey task, role⟩

/-- A seed that came to its end, or to the first `reached` of its rounds. -/
structure Seeding where
  client : Client
  clock : ℕ → ℤ
  reached : ℕ

namespace Seeding

/-- The rounds that it came to. -/
def tasks (seeding : Seeding) : List SeedTask := (seedTasks seeding.client).take seeding.reached

/-- What it has found, in the order of its rounds. -/
def sightings (seeding : Seeding) : List Sighting := seeding.tasks.filterMap sightingOf

/-- The database after it. -/
def apply (seeding : Seeding) (db : Database) : Database :=
  seeding.tasks.foldl (fun db task => seedDay seeding.clock task.1 db task.2) db

/-- A seed that nothing cuts off is `seed_day_role_map`. -/
theorem apply_eq_seedDayRoleMap {seeding : Seeding} {db : Database}
    (h : (seedTasks seeding.client).length ≤ seeding.reached) :
    seeding.apply db = seedDayRoleMap seeding.clock seeding.client db := by
  rw [apply, tasks, List.take_of_length_le h, ← seedDayRoleMap_eq_foldl]

end Seeding

/-- The database after several seeds. -/
def applyAll (seedings : List Seeding) (db : Database) : Database :=
  seedings.foldl (fun db seeding => seeding.apply db) db

/-! ## Rounds -/

section Rounds

variable {clock : ℕ → ℤ} {db : Database} {task : SeedTask} {seen s : Sighting}
  {sightings : List Sighting}

theorem sightingOf_eq_some_iff : sightingOf task = some seen ↔
    IsFirstNamed (dayRoleName task.2) seen.role task.1.roles ∧ seen.key = taskKey task := by
  rw [sightingOf, Option.map_eq_some_iff]
  constructor
  · intro h
    obtain ⟨role, hrole, rfl⟩ := h
    exact ⟨find?_name_eq_some_iff.mp hrole, rfl⟩
  · intro h
    obtain ⟨hrole, hkey⟩ := h
    exact ⟨seen.role, find?_name_eq_some_iff.mpr hrole, by rw [← hkey]⟩

theorem sightingOf_eq_none_iff :
    sightingOf task = none ↔ ∀ role ∈ task.1.roles, role.name ≠ dayRoleName task.2 := by
  simp [sightingOf]

/-- The rows tell what was found. -/
def Database.Shows (db : Database) (s : Sighting) : Prop :=
  s ∈ db.table.rows.map StoredDayRole.sighting

/-- A row of the key shows only one role. -/
theorem Database.Shows.unique (h : db.Shows s) (hseen : db.Shows seen) (hkey : s.key = seen.key) :
    s = seen := by
  obtain ⟨row, hrow, rfl⟩ := List.mem_map.mp h
  obtain ⟨other, hother, rfl⟩ := List.mem_map.mp hseen
  rw [DayRoleMapTable.eq_of_key_eq hrow hother hkey]

/-- **Step lemma.**  A round brings the row of its key to what it has found. -/
theorem shows_seedDay (clock : ℕ → ℤ) (hseen : sightingOf task = some seen) :
    (seedDay clock task.1 db task.2).Shows s ↔
      if seen.key = s.key then s = seen else db.Shows s := by
  obtain ⟨hfirst, hkey⟩ := sightingOf_eq_some_iff.mp hseen
  obtain ⟨hmissing, -⟩ | ⟨role, hrole, hupserted⟩ := seedDay_cases clock task db
  · exact absurd hfirst.mem.2 (hmissing _ hfirst.mem.1)
  obtain rfl := hfirst.unique hrole
  split
  next hsame =>
    have hnew : (seedDay clock task.1 db task.2).Shows seen := by
      obtain ⟨row, hrow, hrowKey, hid, hname⟩ := hupserted.exists_row
      refine List.mem_map.mpr ⟨row, hrow, ?_⟩
      rw [StoredDayRole.sighting, hrowKey, hid, hname]
      exact congrArg (fun key => (⟨key, seen.role⟩ : Sighting)) hkey.symm
    constructor
    · intro h
      exact h.unique hnew hsame.symm
    · intro h
      rwa [h]
  next hother =>
    have hsame (row : StoredDayRole) (hrow : row.sighting = s) :
        row ∈ (seedDay clock task.1 db task.2).table.rows ↔ row ∈ db.table.rows := by
      apply hupserted.mem_of_ne
      intro heq
      apply hother
      calc
        seen.key = taskKey task := hkey
        _ = row.key := heq.symm
        _ = s.key := congrArg Sighting.key hrow
    unfold Database.Shows
    rw [List.mem_map, List.mem_map]
    exact exists_congr fun row => and_congr_left fun hrow => hsame row hrow

/-- The table shows what the history of sightings ends with. -/
def Database.Reflects (db : Database) (sightings : List Sighting) : Prop :=
  ∀ s, db.Shows s ↔ IsLast (fun other => other.key = s.key) sightings s

theorem Database.Reflects.seedDay (h : db.Reflects sightings) (clock : ℕ → ℤ) (task : SeedTask) :
    (seedDay clock task.1 db task.2).Reflects (sightings ++ (sightingOf task).toList) := by
  cases hseen : sightingOf task with
  | none =>
      obtain ⟨-, hidle⟩ | ⟨role, hrole, -⟩ := seedDay_cases clock task db
      · rw [hidle, Option.toList_none, List.append_nil]
        exact h
      · exact absurd hrole.mem.2 (sightingOf_eq_none_iff.mp hseen role hrole.mem.1)
  | some seen =>
      intro s
      rw [shows_seedDay clock hseen]
      split
      next hsame =>
        exact (isLast_concat (p := fun other : Sighting => other.key = s.key) hsame).symm
      next hother =>
        rw [h s]
        exact (isLast_concat_of_not (p := fun other : Sighting => other.key = s.key) hother).symm

theorem Database.Reflects.rounds (h : db.Reflects sightings) (clock : ℕ → ℤ)
    (tasks : List SeedTask) :
    (tasks.foldl (fun db task => Roles.seedDay clock task.1 db task.2) db).Reflects
      (sightings ++ tasks.filterMap sightingOf) := by
  induction tasks generalizing db sightings with
  | nil =>
      rw [List.filterMap_nil, List.append_nil]
      exact h
  | cons task rest ih =>
      have hsplit : (task :: rest).filterMap sightingOf =
          (sightingOf task).toList ++ rest.filterMap sightingOf := by
        rw [List.filterMap_cons]
        cases sightingOf task <;> rfl
      rw [hsplit, ← List.append_assoc]
      exact ih (h.seedDay clock task)

end Rounds

/-! ## Seeds -/

section Seeds

variable {db : Database} {seedings : List Seeding} {sightings : List Sighting}

/-- **Run lemma.** -/
theorem Database.Reflects.applyAll (h : db.Reflects sightings) (seedings : List Seeding) :
    (applyAll seedings db).Reflects (sightings ++ seedings.flatMap Seeding.sightings) := by
  induction seedings generalizing db sightings with
  | nil =>
      rw [List.flatMap_nil, List.append_nil]
      exact h
  | cons seeding rest ih =>
      rw [List.flatMap_cons, ← List.append_assoc]
      exact ih (h.rounds seeding.clock seeding.tasks)

theorem nodup_noDayRoles : (([] : List StoredDayRole).map StoredDayRole.key).Nodup :=
  List.nodup_nil

/-- Nothing has been seeded. -/
def Database.empty : Database := ⟨⟨[], nodup_noDayRoles⟩, []⟩

theorem reflects_empty : Database.empty.Reflects [] := by
  intro s
  exact iff_of_false List.not_mem_nil isLast_nil

/-- A lookup of the role service finds the role of a row. -/
theorem lookup_dayMap_iff {w : World} {table : DayRoleMapTable}
    (hworld : w.dayRoleMap = table.dayRoles) {guildId day roleId : ℤ} :
    (w.dayMap guildId).lookup day = some roleId ↔
      ∃ row ∈ table.rows, row.key = (guildId, day) ∧ row.discordRoleId = roleId := by
  have hmem : (day, roleId) ∈ w.dayMap guildId ↔
      ∃ row ∈ table.rows, row.key = (guildId, day) ∧ row.discordRoleId = roleId := by
    rw [World.dayMap, hworld, DayRoleTable.dayMap, dayMapOf, List.mem_map]
    constructor
    · intro h
      obtain ⟨columns, hcolumns, hpair⟩ := h
      obtain ⟨hstored, hguild⟩ := List.mem_filter.mp hcolumns
      obtain ⟨row, hrow, rfl⟩ := List.mem_map.mp hstored
      obtain ⟨hday, hid⟩ := Prod.mk.inj hpair
      exact ⟨row, hrow, Prod.ext (of_decide_eq_true hguild) hday, hid⟩
    · intro h
      obtain ⟨row, hrow, hkey, hid⟩ := h
      obtain ⟨hguild, hday⟩ := Prod.mk.inj hkey
      exact ⟨row.toDayRoleMap, List.mem_filter.mpr ⟨List.mem_map_of_mem hrow,
        decide_eq_true hguild⟩, Prod.ext hday hid⟩
  rw [← hmem]
  exact ⟨mem_of_lookup, lookup_of_mem (w.dayMap_nodup guildId)⟩

/-- Whatever the seeds were, and wherever they were cut off, an assign of a day looks up the role
that the last of them to come to a role of its name has found. -/
theorem lookup_iff_lastSighting (seedings : List Seeding) (w : World) (guildId day roleId : ℤ) :
    (World.dayMap { w with dayRoleMap := (applyAll seedings .empty).table.dayRoles } guildId).lookup
        day = some roleId ↔
      ∃ name, IsLast (fun s => s.key = (guildId, day)) (seedings.flatMap Seeding.sightings)
        ⟨(guildId, day), roleId, name⟩ := by
  have hreflects := reflects_empty.applyAll seedings
  rw [List.nil_append] at hreflects
  rw [lookup_dayMap_iff rfl]
  constructor
  · intro h
    obtain ⟨row, hrow, hkey, rfl⟩ := h
    refine ⟨row.roleDisplayName, ?_⟩
    have hlast := (hreflects row.sighting).mp (List.mem_map_of_mem hrow)
    rw [StoredDayRole.sighting, hkey] at hlast
    exact hlast
  · intro h
    obtain ⟨name, hlast⟩ := h
    obtain ⟨row, hrow, hsighting⟩ := List.mem_map.mp ((hreflects _).mpr hlast)
    obtain ⟨hkey, hrole⟩ := Sighting.mk.inj hsighting
    exact ⟨row, hrow, hkey, congrArg LiveRole.id hrole⟩

end Seeds

end MomBot.Roles
