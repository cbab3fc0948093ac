import Mathlib.Data.List.Perm.Basic
import MomBot.Reminders.Seed

/-!
# One table, whichever way it was seeded

* Each migration does what its function does (`TankWeekSeedRows.upgrade_eq`,
  `SiegeSeedRows.upgrade_eq`), although one writes texts and a delivery target and the
  other objects and a default.
* Each function adds the rows that are missing (`addMissing`).  The rows that it finds
  stay, and with them the Hydra row, so a second time nothing is missing.
* From the Hydra and the Chimera row on, every row is one of the six that the first boot
  writes (`Seeding`).  Names are unique, so once all six names are there, the rows are
  those six.
-/

namespace MomBot.Reminders

open Python

variable {s s' : ReminderStore} {r r' : NewReminder} {row : StoredReminder}
  {channelId roleMentionId : ℤ}

/-! ## Adding the rows that are missing -/

namespace ReminderStore

/-- The rows whose names are not taken are added. -/
def addMissing (s : ReminderStore) (reminders : List NewReminder) : ReminderStore :=
  reminders.foldl insertUnlessExists s

theorem insertUnlessExists_congr (h : ∀ id, r.load id = r'.load id) :
    s.insertUnlessExists r = s.insertUnlessExists r' := by
  have hname : r.name = r'.name := congrArg StoredReminder.name (h 0)
  unfold insertUnlessExists
  by_cases hmem : r.name ∈ s.names
  · rw [dif_pos hmem, dif_pos (hname ▸ hmem)]
  · rw [dif_neg hmem, dif_neg (hname ▸ hmem)]
    simp only [insert, h]

theorem insertUnlessExists_twice_congr {q q' : NewReminder} (hr : ∀ id, r.load id = r'.load id)
    (hq : ∀ id, q.load id = q'.load id) :
    (s.insertUnlessExists r).insertUnlessExists q =
      (s.insertUnlessExists r').insertUnlessExists q' := by
  rw [insertUnlessExists_congr hr, insertUnlessExists_congr hq]

theorem insertUnlessExists_of_mem (h : r.name ∈ s.names) : s.insertUnlessExists r = s :=
  dif_pos h

/-- An insert appends its row, or finds a row of that name. -/
theorem rows_insertUnlessExists :
    (s.insertUnlessExists r).rows = s.rows ∧ r.name ∈ s.names ∨
      ∃ id, (s.insertUnlessExists r).rows = s.rows ++ [r.load id] ∧ r.name ∉ s.names := by
  unfold insertUnlessExists
  split
  next hmem => exact .inl ⟨rfl, hmem⟩
  next hfree => exact .inr ⟨s.nextId, rfl, hfree⟩

/-- The rows of `s'` are those of `s`, followed by rows for names that were missing. -/
def Extends (s' s : ReminderStore) (reminders : List NewReminder) : Prop :=
  ∃ added, s'.rows = s.rows ++ added ∧
    ∀ row ∈ added, row.name ∉ s.names ∧ ∃ r ∈ reminders, ∃ id, row = r.load id

theorem addMissing_extends (reminders : List NewReminder) :
    Extends (s.addMissing reminders) s reminders := by
  induction reminders generalizing s with
  | nil => exact ⟨[], (List.append_nil _).symm, List.forall_mem_nil _⟩
  | cons r rest ih =>
      obtain ⟨added, hrows, hadded⟩ := ih (s := s.insertUnlessExists r)
      change ((s.insertUnlessExists r).addMissing rest).rows = _ at hrows
      rcases rows_insertUnlessExists (s := s) (r := r) with ⟨hsame, -⟩ | ⟨id, hnew, hfree⟩
      · refine ⟨added, by rw [← hsame]; exact hrows, fun row hrow => ?_⟩
        obtain ⟨hname, other, hother, hload⟩ := hadded row hrow
        rw [names, hsame] at hname
        exact ⟨hname, other, List.mem_cons_of_mem _ hother, hload⟩
      · refine ⟨r.load id :: added, ?_, fun row hrow => ?_⟩
        · rw [List.append_cons, ← hnew]
          exact hrows
        rcases List.mem_cons.mp hrow with rfl | hrow
        · exact ⟨hfree, r, List.mem_cons_self, id, rfl⟩
        · obtain ⟨hname, other, hother, hload⟩ := hadded row hrow
          refine ⟨fun hold => hname ?_, other, List.mem_cons_of_mem _ hother, hload⟩
          rw [names, hnew, List.map_append]
          exact List.mem_append_left _ hold

theorem mem_names_of_extends {reminders : List NewReminder} (h : Extends s' s reminders)
    {name : String} (hname : name ∈ s.names) : name ∈ s'.names := by
  obtain ⟨added, hrows, -⟩ := h
  rw [names, hrows, List.map_append]
  exact List.mem_append_left _ hname

/-- Afterwards no name is missing. -/
theorem mem_names_addMissing {reminders : List NewReminder} (hr : r ∈ reminders) :
    r.name ∈ (s.addMissing reminders).names := by
  induction reminders generalizing s with
  | nil => simp at hr
  | cons first rest ih =>
      rcases List.mem_cons.mp hr with rfl | hr
      · apply mem_names_of_extends (addMissing_extends rest)
        rcases rows_insertUnlessExists (s := s) (r := r) with ⟨hsame, hmem⟩ | ⟨id, hnew, -⟩
        · rwa [names, hsame]
        · rw [names, hnew, List.map_append]
          exact List.mem_append_right _ List.mem_cons_self
      · exact ih hr

theorem addMissing_of_forall_mem {reminders : List NewReminder}
    (h : ∀ r ∈ reminders, r.name ∈ s.names) : s.addMissing reminders = s := by
  induction reminders with
  | nil => rfl
  | cons r rest ih =>
      obtain ⟨hr, hrest⟩ := List.forall_mem_cons.mp h
      rw [addMissing, List.foldl_cons, insertUnlessExists_of_mem hr]
      exact ih hrest

/-- The first row of a name stays the first. -/
theorem hydra_of_extends {reminders : List NewReminder} (h : Extends s' s reminders)
    {hydra : StoredReminder} (hhydra : s.hydra = some hydra) : s'.hydra = some hydra := by
  obtain ⟨added, hrows, -⟩ := h
  rw [ReminderStore.hydra, hrows, List.find?_append]
  rw [ReminderStore.hydra] at hhydra
  rw [hhydra]
  rfl

theorem mem_of_hydra {hydra : StoredReminder} (h : s.hydra = some hydra) :
    hydra ∈ s.rows ∧ hydra.name = "Hydra" :=
  ⟨List.mem_of_find?_eq_some h, by simpa using List.find?_some h⟩

theorem exists_hydra (h : "Hydra" ∈ s.names) : ∃ hydra, s.hydra = some hydra := by
  obtain ⟨row, hrow, hname⟩ := List.mem_map.mp h
  apply Option.isSome_iff_exists.mp
  rw [ReminderStore.hydra, List.find?_isSome]
  exact ⟨row, hrow, by simpa using hname⟩

end ReminderStore

/-! ## The four steps -/

/-- The two functions and the two migrations. -/
inductive SeedStep where
  | tankWeekMigration
  | tankWeekFunction
  | siegeMigration
  | siegeFunction
  deriving DecidableEq

namespace SeedStep

/-- The table after a step. -/
def apply : SeedStep → ReminderStore → ReminderStore
  | tankWeekMigration => TankWeekSeedRows.upgrade
  | tankWeekFunction => seedTankWeekReminders
  | siegeMigration => SiegeSeedRows.upgrade
  | siegeFunction => seedSiegeReminders

/-- The step is about Tank Week. -/
def isTankWeek : SeedStep → Bool
  | tankWeekMigration | tankWeekFunction => true
  | siegeMigration | siegeFunction => false

/-- The names that a step writes. -/
def names : SeedStep → List String
  | tankWeekMigration | tankWeekFunction => ["Hydra Tank Week Heads-up", "Hydra Tank Week End"]
  | siegeMigration | siegeFunction => ["Siege 48h Heads-up", "Siege 24h Heads-up"]

end SeedStep

theorem TankWeekSeedRows.upgrade_eq (s : ReminderStore) :
    TankWeekSeedRows.upgrade s = seedTankWeekReminders s := by
  have hfire : TankWeekSeedRows.fireTime = clock 7 0 := by decide
  unfold TankWeekSeedRows.upgrade seedTankWeekReminders
  cases s.hydra with
  | none => rfl
  | some hydra =>
      apply ReminderStore.insertUnlessExists_twice_congr
      · intro id
        simp only [NewReminder.load, hfire]
        rfl
      · intro id
        simp only [NewReminder.load, hfire]
        rfl

theorem SiegeSeedRows.upgrade_eq (s : ReminderStore) :
    SiegeSeedRows.upgrade s = seedSiegeReminders s := by
  have hfire : SiegeSeedRows.fireTime = clock 10 0 := by decide
  unfold SiegeSeedRows.upgrade seedSiegeReminders
  cases s.hydra with
  | none => rfl
  | some hydra =>
      apply ReminderStore.insertUnlessExists_twice_congr
      · intro id
        simp only [NewReminder.load, hfire]
        rfl
      · intro id
        simp only [NewReminder.load, hfire]
        rfl

/-! ## What a step does to any table -/

/-- The rows that a step adds to a table with this Hydra row. -/
def SeedStep.reminders : SeedStep → StoredReminder → List NewReminder
  | tankWeekMigration, hydra | tankWeekFunction, hydra => tankWeekReminders hydra
  | siegeMigration, hydra | siegeFunction, hydra => siegeReminders hydra

theorem SeedStep.apply_eq (step : SeedStep) (s : ReminderStore) :
    step.apply s =
      match s.hydra with
      | none => s
      | some hydra => s.addMissing (step.reminders hydra) := by
  cases step with
  | tankWeekMigration => exact TankWeekSeedRows.upgrade_eq s
  | tankWeekFunction => rfl
  | siegeMigration => exact SiegeSeedRows.upgrade_eq s
  | siegeFunction => rfl

theorem SeedStep.names_eq (step : SeedStep) (hydra : StoredReminder) :
    (step.reminders hydra).map NewReminder.name = step.names := by
  cases step <;> rfl

theorem SeedStep.apply_extends (step : SeedStep) {hydra : StoredReminder}
    (hhydra : s.hydra = some hydra) :
    (step.apply s).Extends s (step.reminders hydra) := by
  rw [step.apply_eq, hhydra]
  exact ReminderStore.addMissing_extends _

theorem SeedStep.mem_names_apply (step : SeedStep) {name : String} (h : name ∈ s.names) :
    name ∈ (step.apply s).names := by
  cases hhydra : s.hydra with
  | none => rwa [step.apply_eq, hhydra]
  | some hydra => exact ReminderStore.mem_names_of_extends (step.apply_extends hhydra) h

theorem SeedStep.names_subset_apply (step : SeedStep) {hydra : StoredReminder}
    (hhydra : s.hydra = some hydra) {name : String} (hname : name ∈ step.names) :
    name ∈ (step.apply s).names := by
  rw [← step.names_eq hydra] at hname
  obtain ⟨r, hr, rfl⟩ := List.mem_map.mp hname
  rw [step.apply_eq, hhydra]
  exact ReminderStore.mem_names_addMissing hr

/-- A step applied to a table. -/
structure InsertsMissing (step : SeedStep) (s : ReminderStore) : Prop where
  /-- The rows that were there stay as they are.  A new row has one of the names of the step, which
  was missing, and the channel and the role of the Hydra row. -/
  extended : ∃ added, (step.apply s).rows = s.rows ++ added ∧ ∀ row ∈ added,
    row.name ∈ step.names ∧ row.name ∉ s.names ∧ ∃ hydra, s.hydra = some hydra ∧
      row.channelId = hydra.channelId ∧ row.roleMentionId = hydra.roleMentionId
  complete : s.hydra ≠ none → ∀ name ∈ step.names, name ∈ (step.apply s).names
  noHydra : s.hydra = none → step.apply s = s
  idempotent : step.apply (step.apply s) = step.apply s

theorem SeedStep.load_of_mem (step : SeedStep) {hydra : StoredReminder}
    (hr : r ∈ step.reminders hydra) (id : ℤ) :
    (r.load id).name ∈ step.names ∧ (r.load id).channelId = hydra.channelId ∧
      (r.load id).roleMentionId = hydra.roleMentionId := by
  refine ⟨?_, ?_⟩
  · rw [← step.names_eq hydra]
    exact List.mem_map_of_mem hr
  · cases step <;>
    · simp only [SeedStep.reminders, tankWeekReminders, siegeReminders, List.mem_cons,
        List.not_mem_nil, or_false] at hr
      rcases hr with rfl | rfl <;> exact ⟨rfl, rfl⟩

theorem insertsMissing (step : SeedStep) (s : ReminderStore) : InsertsMissing step s := by
  cases hhydra : s.hydra with
  | none =>
      have hsame : step.apply s = s := by rw [step.apply_eq, hhydra]
      refine ⟨⟨[], ?_, List.forall_mem_nil _⟩, fun h => absurd hhydra h, fun _ => hsame, ?_⟩
      · rw [hsame, List.append_nil]
      · rw [hsame, hsame]
  | some hydra =>
      have hextends := step.apply_extends hhydra
      refine ⟨?_, fun _ name hname => step.names_subset_apply hhydra hname,
        fun hnone => absurd (hhydra.symm.trans hnone) (by simp), ?_⟩
      · obtain ⟨added, hrows, hadded⟩ := hextends
        refine ⟨added, hrows, fun row hrow => ?_⟩
        obtain ⟨hfree, r, hr, id, rfl⟩ := hadded row hrow
        obtain ⟨hname, hchannel, hrole⟩ := step.load_of_mem hr id
        exact ⟨hname, hfree, hydra, hhydra, hchannel, hrole⟩
      · -- the Hydra row is the same, and none of the names is missing any more
        rw [step.apply_eq (step.apply s), ReminderStore.hydra_of_extends hextends hhydra]
        apply ReminderStore.addMissing_of_forall_mem
        intro r hr
        apply step.names_subset_apply hhydra
        rw [← step.names_eq hydra]
        exact List.mem_map_of_mem hr

/-! ## From the first boot, or step by step -/

/-- The columns of a row, the id apart. -/
def StoredReminder.columns (row : StoredReminder) : StoredReminder := { row with id := 0 }

@[simp] theorem StoredReminder.columns_name (row : StoredReminder) : row.columns.name = row.name :=
  rfl

theorem NewReminder.columns_load (r : NewReminder) (id : ℤ) : (r.load id).columns = r.load 0 := rfl

/-- The columns of the six rows. -/
def seedColumns (channelId roleMentionId : ℤ) : List StoredReminder :=
  (seedReminders channelId roleMentionId).map fun r => r.load 0

/-- The tables hold the same rows, up to their ids and their order. -/
def SameRows (rows rows' : List StoredReminder) : Prop :=
  (rows.map StoredReminder.columns).Perm (rows'.map StoredReminder.columns)

theorem seedColumns_names :
    (seedColumns channelId roleMentionId).map StoredReminder.name =
      ["Hydra", "Chimera", "Hydra Tank Week Heads-up", "Hydra Tank Week End",
        "Siege 48h Heads-up", "Siege 24h Heads-up"] := rfl

/-- What `add_all` writes. -/
theorem ReminderStore.exists_addAll {reminders : List NewReminder}
    (hnodup : (reminders.map NewReminder.name).Nodup)
    (hfree : ∀ r ∈ reminders, r.name ∉ s.names) :
    ∃ s', s.addAll reminders = some s' ∧ s'.rows.map StoredReminder.columns =
      s.rows.map StoredReminder.columns ++ reminders.map fun r => r.load 0 := by
  induction reminders generalizing s with
  | nil => exact ⟨s, rfl, by simp⟩
  | cons r rest ih =>
      obtain ⟨hr, hrest⟩ := List.forall_mem_cons.mp hfree
      obtain ⟨hnew, hnodup⟩ := List.nodup_cons.mp hnodup
      obtain ⟨s', hs', hrows⟩ := ih (s := s.insert r hr) hnodup (by
        intro other hother hmem
        rw [names, insert, List.map_append, List.mem_append] at hmem
        rcases hmem with hold | hsame
        · exact hrest other hother hold
        · have heq : other.name = r.name := List.mem_singleton.mp hsame
          exact hnew (heq ▸ List.mem_map_of_mem hother))
      refine ⟨s', by rw [addAll, dif_neg hr, hs'], ?_⟩
      rw [hrows, insert, List.map_append, List.append_assoc]
      rfl

/-- Every row is one of the six, and the first two are there. -/
structure Seeding (channelId roleMentionId : ℤ) (s : ReminderStore) : Prop where
  known : ∀ row ∈ s.rows, row.columns ∈ seedColumns channelId roleMentionId
  hydra : "Hydra" ∈ s.names
  chimera : "Chimera" ∈ s.names

/-- Of the six rows the one with this name. -/
theorem eq_of_name {row row' : StoredReminder} (h : row ∈ seedColumns channelId roleMentionId)
    (h' : row' ∈ seedColumns channelId roleMentionId) (hname : row.name = row'.name) : row = row' :=
  List.inj_on_of_nodup_map (by rw [seedColumns_names]; decide) h h' hname

namespace Seeding

variable (h : Seeding channelId roleMentionId s)

include h

/-- The Hydra row has the channel and the role of the seed. -/
theorem hydra_columns : ∃ hydra, s.hydra = some hydra ∧ hydra.channelId = channelId ∧
    hydra.roleMentionId = some roleMentionId := by
  obtain ⟨hydra, hhydra⟩ := ReminderStore.exists_hydra h.hydra
  obtain ⟨hmem, hname⟩ := ReminderStore.mem_of_hydra hhydra
  have hfirst : ((seedReminders channelId roleMentionId).map fun r => r.load 0).head
      (by simp [seedReminders]) ∈ seedColumns channelId roleMentionId := List.head_mem _
  have hcolumns := eq_of_name (h.known hydra hmem) hfirst hname
  exact ⟨hydra, hhydra, congrArg (fun row => row.channelId) hcolumns,
    congrArg (fun row => row.roleMentionId) hcolumns⟩

theorem step (step : SeedStep) : Seeding channelId roleMentionId (step.apply s) := by
  obtain ⟨hydra, hhydra, hchannel, hrole⟩ := h.hydra_columns
  refine ⟨fun row hrow => ?_, step.mem_names_apply h.hydra, step.mem_names_apply h.chimera⟩
  obtain ⟨added, hrows, hadded⟩ := step.apply_extends hhydra
  rw [hrows] at hrow
  rcases List.mem_append.mp hrow with hold | hnew
  · exact h.known row hold
  · obtain ⟨-, r, hr, id, rfl⟩ := hadded row hnew
    rw [r.columns_load]
    cases step <;>
    · simp only [SeedStep.reminders, tankWeekReminders, siegeReminders, List.mem_cons,
        List.not_mem_nil, or_false, hchannel, hrole] at hr
      rcases hr with rfl | rfl <;> simp [seedColumns, seedReminders, NewReminder.load]

theorem steps (steps : List SeedStep) :
    Seeding channelId roleMentionId (steps.foldl (fun s step => step.apply s) s) := by
  induction steps generalizing s with
  | nil => exact h
  | cons step rest ih => exact ih (h.step step)

/-- A step that was applied has left its names. -/
theorem mem_names_steps {steps : List SeedStep} {step : SeedStep} (hstep : step ∈ steps)
    {name : String} (hname : name ∈ step.names) :
    name ∈ (steps.foldl (fun s step => step.apply s) s).names := by
  have hmono : ∀ (steps : List SeedStep) {s : ReminderStore}, name ∈ s.names →
      name ∈ (steps.foldl (fun s step => step.apply s) s).names := by
    intro steps
    induction steps with
    | nil => exact fun hmem => hmem
    | cons first rest ih => exact fun hmem => ih (first.mem_names_apply hmem)
  induction steps generalizing s with
  | nil => simp at hstep
  | cons first rest ih =>
      rcases List.mem_cons.mp hstep with rfl | hrest
      · obtain ⟨hydra, hhydra, -⟩ := h.hydra_columns
        exact hmono rest (step.names_subset_apply hhydra hname)
      · exact ih (h.step first) hrest

/-- Once all six names are there, the rows are the six. -/
theorem perm_seedColumns
    (hnames : ∀ row ∈ seedColumns channelId roleMentionId, row.name ∈ s.names) :
    (s.rows.map StoredReminder.columns).Perm (seedColumns channelId roleMentionId) := by
  have hunique : ((s.rows.map StoredReminder.columns).map StoredReminder.name).Nodup := by
    rw [List.map_map]
    exact s.uniqueName
  have hexpected : ((seedColumns channelId roleMentionId).map StoredReminder.name).Nodup := by
    rw [seedColumns_names]
    decide
  rw [List.perm_ext_iff_of_nodup hunique.of_map hexpected.of_map]
  intro columns
  constructor
  · intro hmem
    obtain ⟨row, hrow, rfl⟩ := List.mem_map.mp hmem
    exact h.known row hrow
  · intro hmem
    obtain ⟨row, hrow, hname⟩ := List.mem_map.mp (hnames columns hmem)
    have heq : row.columns = columns := eq_of_name (h.known row hrow) hmem hname
    exact heq ▸ List.mem_map_of_mem hrow

end Seeding

/-- The rows of a first boot that were there before the other reminders existed. -/
def firstRows (rows : List StoredReminder) : List StoredReminder :=
  rows.filter fun row => row.name ∈ ["Hydra", "Chimera"]

theorem seeding_of_firstRows {rows : List StoredReminder}
    (hseeded : rows.map StoredReminder.columns = seedColumns channelId roleMentionId)
    (h : SameRows s.rows (firstRows rows)) : Seeding channelId roleMentionId s := by
  have hknown : ∀ row ∈ s.rows, row.columns ∈ (firstRows rows).map StoredReminder.columns :=
    fun row hrow => h.subset (List.mem_map_of_mem hrow)
  have hname : ∀ name ∈ ["Hydra", "Chimera"], name ∈ s.names := by
    intro name hname
    have hexpected : name ∈ (seedColumns channelId roleMentionId).map StoredReminder.name := by
      rw [seedColumns_names]
      simp only [List.mem_cons, List.not_mem_nil, or_false] at hname ⊢
      tauto
    obtain ⟨columns, hcolumns, hcolumnsName⟩ := List.mem_map.mp hexpected
    rw [← hseeded] at hcolumns
    obtain ⟨row, hrow, rfl⟩ := List.mem_map.mp hcolumns
    have hfirst : row ∈ firstRows rows :=
      List.mem_filter.mpr ⟨hrow, by rw [← hcolumnsName] at hname; simpa using hname⟩
    obtain ⟨row', hrow', heq⟩ := List.mem_map.mp (h.symm.subset (List.mem_map_of_mem hfirst))
    refine List.mem_map.mpr ⟨row', hrow', ?_⟩
    rw [← hcolumnsName, ← row'.columns_name, heq]
  refine ⟨fun row hrow => ?_, hname _ (by simp), hname _ (by simp)⟩
  obtain ⟨row', hrow', heq⟩ := List.mem_map.mp (hknown row hrow)
  rw [← hseeded, ← heq]
  exact List.mem_map_of_mem (List.mem_of_mem_filter hrow')

/-- The first boot on an empty table. -/
theorem maybeSeedReminders_empty {env : SeedEnvironment} (hempty : s.rows = [])
    (henv : resolveSeed env = .ok (channelId, roleMentionId)) :
    ∃ seeded, maybeSeedReminders env s = (.ok (), seeded) ∧
      seeded.rows.map StoredReminder.columns = seedColumns channelId roleMentionId := by
  have hnodup : ((seedReminders channelId roleMentionId).map NewReminder.name).Nodup := by
    simp [seedReminders]
  have hfree : ∀ r ∈ seedReminders channelId roleMentionId, r.name ∉ s.names := by
    simp [ReminderStore.names, hempty]
  obtain ⟨seeded, hadd, hrows⟩ := ReminderStore.exists_addAll hnodup hfree
  refine ⟨seeded, ?_, by simpa [hempty, seedColumns] using hrows⟩
  simp [maybeSeedReminders, hempty, henv, hadd]

/-- The steps reach the rows of the first boot. -/
theorem sameRows_of_steps {seeded : List StoredReminder} {steps : List SeedStep}
    (hseeded : seeded.map StoredReminder.columns = seedColumns channelId roleMentionId)
    (hstart : SameRows s.rows (firstRows seeded))
    (htank : ∃ step ∈ steps, step.isTankWeek = true)
    (hsiege : ∃ step ∈ steps, step.isTankWeek = false) :
    SameRows (steps.foldl (fun s step => step.apply s) s).rows seeded := by
  have hseeding := seeding_of_firstRows hseeded hstart
  obtain ⟨tank, htank, hkind⟩ := htank
  obtain ⟨siege, hsiege, hkind'⟩ := hsiege
  have htankNames : tank.names = SeedStep.tankWeekFunction.names := by
    cases tank <;> first | rfl | cases hkind
  have hsiegeNames : siege.names = SeedStep.siegeFunction.names := by
    cases siege <;> first | rfl | cases hkind'
  have hfinal := hseeding.steps steps
  rw [SameRows, hseeded]
  apply hfinal.perm_seedColumns
  intro row hrow
  have hname : row.name ∈ (seedColumns channelId roleMentionId).map StoredReminder.name :=
    List.mem_map_of_mem hrow
  simp only [seedColumns_names, List.mem_cons, List.not_mem_nil, or_false] at hname
  rcases hname with hname | hname | hname | hname | hname | hname <;> rw [hname]
  · exact hfinal.hydra
  · exact hfinal.chimera
  · exact hseeding.mem_names_steps htank (by rw [htankNames]; decide)
  · exact hseeding.mem_names_steps htank (by rw [htankNames]; decide)
  · exact hseeding.mem_names_steps hsiege (by rw [hsiegeNames]; decide)
  · exact hseeding.mem_names_steps hsiege (by rw [hsiegeNames]; decide)

/-- **The seed paths agree.**  From the Hydra and the Chimera row, any steps of both kinds lead to
the rows of the first boot, and on any table a step only adds what is missing. -/
theorem seedPaths_agree :
    (∀ channelId roleMentionId env (s : ReminderStore), s.rows = [] →
      resolveSeed env = .ok (channelId, roleMentionId) →
      ∃ seeded, maybeSeedReminders env s = (.ok (), seeded) ∧ seeded.rows.length = 6 ∧
        ∀ (start : ReminderStore) (steps : List SeedStep),
          SameRows start.rows (firstRows seeded.rows) →
          (∃ step ∈ steps, step.isTankWeek = true) → (∃ step ∈ steps, step.isTankWeek = false) →
          SameRows (steps.foldl (fun s step => step.apply s) start).rows seeded.rows) ∧
    ∀ step s, InsertsMissing step s := by
  refine ⟨fun channelId roleMentionId env s hempty henv => ?_, insertsMissing⟩
  obtain ⟨seeded, hseed, hcolumns⟩ := maybeSeedReminders_empty hempty henv
  refine ⟨seeded, hseed, ?_, fun start steps hstart htank hsiege => ?_⟩
  · rw [← List.length_map StoredReminder.columns, hcolumns]
    rfl
  · exact sameRows_of_steps hcolumns hstart htank hsiege

/-! ### An old table -/

/-- The secrets of a guild with one channel and one role. -/
def oneGuild : SeedEnvironment where
  loadSecret
    | "guild-id" => .ok "1"
    | "reminder-channel-name" => .ok "reminders"
    | "reminder-mention-role-name" => .ok "raid"
    | secretName => .error (.secret secretName)
  getGuild guildId := if guildId = 1 then some ⟨"clan", [("reminders", 5)], [("raid", 6)]⟩ else none

/-- A table of the time before the other four reminders. -/
def oldTable : ReminderStore := ReminderStore.empty.addMissing ((seedReminders 5 6).take 2)

/-- Both kinds, the Siege rows by the migration first and then by the function too. -/
def mixedSteps : List SeedStep := [.siegeMigration, .tankWeekFunction, .siegeFunction]

theorem seedPaths_agree_mixed : ∃ seeded, maybeSeedReminders oneGuild .empty = (.ok (), seeded) ∧
    oldTable.rows.length = 2 ∧
    SameRows (mixedSteps.foldl (fun s step => step.apply s) oldTable).rows seeded.rows := by
  obtain ⟨seeded, hseed, -, hsame⟩ := seedPaths_agree.1 5 6 oneGuild .empty rfl rfl
  refine ⟨seeded, hseed, rfl, hsame oldTable mixedSteps ?_ ?_ ?_⟩
  · obtain rfl : (maybeSeedReminders oneGuild .empty).2 = seeded := congrArg Prod.snd hseed
    exact List.Perm.refl _
  · exact ⟨.tankWeekFunction, by decide, rfl⟩
  · exact ⟨.siegeMigration, by decide, rfl⟩

end MomBot.Reminders
