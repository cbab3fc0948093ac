import Mathlib.Data.List.Sort
import Mathlib.Data.Int.Notation
import MomBot.Discord

/-!
# Pages of the preference editor

The catalog is split into the meta-groups, each sorted by type and id, and each
group into pages of at most twenty conditions.  A condition of an unknown type is on no
page.  The label of a button comes from a fixed table.
-/

namespace MomBot.PostConditions

/-- A PostConditionResponse dict. -/
structure Condition where
  id : ℤ
  conditionType : String
  description : String
  deriving DecidableEq

/-! ## `grouping` -/

/-- `META_GROUPS`. -/
def metaGroups : List (String × List String) :=
  [("Faction & League", ["faction", "league"]),
    ("Role, Affinity, Rarity", ["role", "affinity", "rarity"]),
    ("Effects & Other", ["effect", "other"])]

/-- `_TYPE_TO_META.get`. -/
def typeToMeta (conditionType : String) : Option String :=
  (metaGroups.find? fun group => conditionType ∈ group.2).map Prod.fst

/-- The conditions of a meta-group, in their order. -/
def bucket (conditions : List Condition) (label : String) : List Condition :=
  conditions.filter fun cond => typeToMeta cond.conditionType = some label

/-- `group_by_meta`: the meta-groups that are not empty. -/
def groupByMeta (conditions : List Condition) : List (String × List Condition) :=
  (metaGroups.map fun group => (group.1, bucket conditions group.1)).filter fun group =>
    ¬ group.2.isEmpty

/-! ## `grid_layout` -/

/-- `_PAGE_SIZE`. -/
def pageSize : ℕ := 20

/-- `GridPage`. -/
structure GridPage where
  label : String
  metaLabel : String
  conditions : List Condition

/-- The key of a condition in the sort, `(condition_type, id)`. -/
def sortsBefore (a b : Condition) : Prop :=
  a.conditionType < b.conditionType ∨ a.conditionType = b.conditionType ∧ a.id ≤ b.id

instance : DecidableRel sortsBefore := fun _ _ => inferInstanceAs (Decidable (_ ∨ _))

/-- `conds[start : start + size] for start in range(0, len(conds), size)`. -/
def chunks (size : ℕ) (conds : List Condition) : List (List Condition) :=
  (List.range ((conds.length + size - 1) / size)).map fun i => (conds.drop (i * size)).take size

/-- The `i`-th of `n` pages of a group, from 1 on. -/
def pageLabel (metaLabel : String) (i n : ℕ) : String :=
  if n = 1 then metaLabel else metaLabel ++ " (" ++ toString i ++ "/" ++ toString n ++ ")"

/-- The pages of one meta-group. -/
def pagesOfGroup (size : ℕ) (group : String × List Condition) : List GridPage :=
  let parts := chunks size (group.2.insertionSort sortsBefore)
  parts.mapIdx fun i chunk => ⟨pageLabel group.1 (i + 1) parts.length, group.1, chunk⟩

/-- `split_by_meta_group`. -/
def splitByMetaGroup (conditions : List Condition) (size : ℕ) : List GridPage :=
  (groupByMeta conditions).flatMap (pagesOfGroup size)

/-! ## `discord_display` -/

/-- `SHORT_LABELS`. -/
def shortLabels : List (String × String) :=
  [("Only Champions from the Telerian League can be used.", "Telerian League"),
    ("Only Champions from the Gaellen Pact can be used.", "Gaellen Pact"),
    ("Only Champions from The Corrupted can be used.", "The Corrupted"),
    ("Only Champions from the Nyresan Union can be used.", "Nyresan Union"),
    ("Only Banner Lord Champions can be used.", "Banner Lords"),
    ("Only High Elves Champions can be used.", "High Elves"),
    ("Only Sacred Order Champions can be used.", "Sacred Order"),
    ("Only Barbarian Champions can be used.", "Barbarians"),
    ("Only Ogryn Tribe Champions can be used.", "Ogryn Tribe"),
    ("Only Lizardmen Champions can be used.", "Lizardmen"),
    ("Only Skinwalker Champions can be used.", "Skinwalkers"),
    ("Only Orc Champions can be used.", "Orcs"),
    ("Only Demonspawn Champions can be used.", "Demonspawn"),
    ("Only Undead Horde Champions can be used.", "Undead Horde"),
    ("Only Dark Elves Champions can be used.", "Dark Elves"),
    ("Only Knights Revenant Champions can be used.", "Knights Revenant"),
    ("Only Dwarves Champions can be used.", "Dwarves"),
    ("Only Shadowkin Champions can be used.", "Shadowkin"),
    ("Only Sylvan Watcher Champions can be used.", "Sylvan Watchers"),
    ("Only HP Champions can be used.", "HP"),
    ("Only DEF Champions can be used.", "DEF"),
    ("Only Support Champions can be used.", "Support"),
    ("Only ATK Champions can be used.", "ATK"),
    ("Only Void Champions can be used.", "Void"),
    ("Only Force Champions can be used.", "Force"),
    ("Only Magic Champions can be used.", "Magic"),
    ("Only Spirit Champions can be used.", "Spirit"),
    ("Only Legendary Champions can be used.", "Legendary"),
    ("Only Epic Champions can be used.", "Epic"),
    ("Only Rare Champions can be used.", "Rare"),
    ("All Champions are immune to Turn Meter reduction effects.", "Immune: TM reduction"),
    ("All Champions are immune to Turn Meter fill effects.", "Immune: TM fill"),
    ("All Champions are immune to cooldown increasing effects.", "Immune: CD increase"),
    ("All Champions are immune to cooldown decreasing effects.", "Immune: CD decrease"),
    ("All Champions are immune to [Sheep] debuffs.", "Immune: [Sheep]"),
    ("Champions cannot be revived.", "No revives")]

/-- The description without an entry in the table. -/
structure KeyError where
  label : String
  deriving DecidableEq

/-- `short_label`; a description that is not in the table raises. -/
def shortLabel (condition : Condition) : Except KeyError String :=
  match shortLabels.lookup condition.description with
  | some label => .ok label
  | none => .error ⟨condition.description⟩

/-! ## What is on the pages -/

theorem mem_of_mem_chunks {size : ℕ} {conds part : List Condition} {cond : Condition}
    (hpart : part ∈ chunks size conds) (hcond : cond ∈ part) : cond ∈ conds := by
  obtain ⟨i, -, rfl⟩ := List.mem_map.mp hpart
  exact List.mem_of_mem_drop (List.mem_of_mem_take hcond)

/-- Every condition of a page is in the catalog. -/
theorem mem_of_mem_splitByMetaGroup {conditions : List Condition} {size : ℕ} {page : GridPage}
    {cond : Condition} (hpage : page ∈ splitByMetaGroup conditions size)
    (hcond : cond ∈ page.conditions) : cond ∈ conditions := by
  obtain ⟨group, hgroup, hpage⟩ := List.mem_flatMap.mp hpage
  obtain ⟨i, hi, rfl⟩ := List.mem_mapIdx.mp hpage
  have hsorted := mem_of_mem_chunks (List.getElem_mem hi) hcond
  rw [List.mem_insertionSort] at hsorted
  obtain ⟨metaGroup, -, rfl⟩ := List.mem_map.mp (List.mem_of_mem_filter hgroup)
  exact List.mem_of_mem_filter hsorted

end MomBot.PostConditions
