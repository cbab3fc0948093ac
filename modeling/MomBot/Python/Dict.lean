import Mathlib.Data.List.Nodup

/-!
# Dictionaries

A dict keeps its keys in the order of their first insertion, and assigning to a key
that is there leaves the order as it is.  `Dict.entries` is what `items()` iterates
over.
-/

namespace MomBot.Python

variable {κ ν : Type} [DecidableEq κ]

/-- `entries[key] = value`. -/
def setEntry (key : κ) (value : ν) : List (κ × ν) → List (κ × ν)
  | [] => [(key, value)]
  | entry :: rest =>
      if entry.1 = key then (key, value) :: rest else entry :: setEntry key value rest

theorem keys_setEntry (key : κ) (value : ν) (entries : List (κ × ν)) :
    (setEntry key value entries).map Prod.fst =
      if key ∈ entries.map Prod.fst then entries.map Prod.fst
      else entries.map Prod.fst ++ [key] := by
  induction entries with
  | nil => rfl
  | cons entry rest ih =>
      by_cases hkey : entry.1 = key
      · simp [setEntry, hkey]
      · have hne : key ≠ entry.1 := fun h => hkey h.symm
        simp only [setEntry, hkey, if_false, List.map_cons, ih, List.mem_cons, hne, false_or]
        split <;> rfl

theorem lookup_cons_eq (key : κ) (entry : κ × ν) (rest : List (κ × ν)) :
    (entry :: rest).lookup key = if key = entry.1 then some entry.2 else rest.lookup key := by
  obtain ⟨first, value⟩ := entry
  rw [List.lookup_cons]
  by_cases h : key = first
  · simp [h]
  · rw [beq_false_of_ne h, if_neg h]

theorem lookup_setEntry (key key' : κ) (value : ν) (entries : List (κ × ν)) :
    (setEntry key value entries).lookup key' =
      if key' = key then some value else entries.lookup key' := by
  induction entries with
  | nil => by_cases h : key' = key <;> simp [setEntry, h]
  | cons entry rest ih =>
      by_cases hkey : entry.1 = key
      · by_cases h : key' = key <;> simp [setEntry, hkey, h, lookup_cons_eq]
      · by_cases hentry : key' = entry.1
        · simp [setEntry, hkey, lookup_cons_eq, hentry]
        · simp [setEntry, hkey, ih, lookup_cons_eq, hentry]

/-- A `dict`, which keeps the order in which its keys came. -/
structure Dict (κ ν : Type) where
  entries : List (κ × ν)
  nodup : (entries.map Prod.fst).Nodup

namespace Dict

/-- The dict without keys. -/
def empty : Dict κ ν := ⟨[], List.nodup_nil⟩

/-- `d.get(key)`. -/
def get? (d : Dict κ ν) (key : κ) : Option ν := d.entries.lookup key

/-- `d[key] = value`. -/
def set (d : Dict κ ν) (key : κ) (value : ν) : Dict κ ν where
  entries := setEntry key value d.entries
  nodup := by
    rw [keys_setEntry]
    split
    next => exact d.nodup
    next hnew =>
      rw [List.nodup_append]
      exact ⟨d.nodup, by simp, by rintro a ha b hb rfl; simp_all⟩

/-- The dict that is built by assigning the pairs in order. -/
def ofList (pairs : List (κ × ν)) : Dict κ ν :=
  pairs.foldl (fun d pair => d.set pair.1 pair.2) empty

variable {d : Dict κ ν} {key key' : κ} {value : ν} {pairs : List (κ × ν)}

theorem get?_set : (d.set key value).get? key' = if key' = key then some value else d.get? key' :=
  lookup_setEntry key key' value d.entries

theorem mem_entries : (key, value) ∈ d.entries ↔ d.get? key = some value := by
  obtain ⟨entries, hnodup⟩ := d
  simp only [get?]
  induction entries with
  | nil => simp
  | cons entry rest ih =>
      obtain ⟨hentry, hrest⟩ := List.nodup_cons.mp hnodup
      have hentry : ∀ other, (entry.1, other) ∉ rest :=
        fun other hmem => hentry (List.mem_map.mpr ⟨_, hmem, rfl⟩)
      by_cases hkey : key = entry.1
      · subst hkey
        simp [lookup_cons_eq, Prod.ext_iff, hentry, eq_comm]
      · simp [lookup_cons_eq, hkey, Prod.ext_iff, ih hrest]

/-- A dict comprehension whose value is determined by the key. -/
theorem get?_ofList_graph (keys : List κ) (f : κ → ν) (key : κ) :
    (ofList (keys.map fun k => (k, f k))).get? key = if key ∈ keys then some (f key) else none := by
  have hfold : ∀ (keys : List κ) (d : Dict κ ν),
      ((keys.map fun k => (k, f k)).foldl (fun d pair => d.set pair.1 pair.2) d).get? key =
        if key ∈ keys then some (f key) else d.get? key := by
    intro keys
    induction keys with
    | nil => simp
    | cons first rest ih =>
        intro d
        rw [List.map_cons, List.foldl_cons, ih, get?_set]
        by_cases hrest : key ∈ rest
        · simp [hrest]
        · by_cases hfirst : key = first <;> simp [hrest, hfirst]
  exact hfold keys empty

/-- The keys of a dict are those that were assigned. -/
theorem isSome_get?_ofList (pairs : List (κ × ν)) (key : κ) :
    ((ofList pairs).get? key).isSome ↔ key ∈ pairs.map Prod.fst := by
  have hfold : ∀ (pairs : List (κ × ν)) (d : Dict κ ν),
      ((pairs.foldl (fun d pair => d.set pair.1 pair.2) d).get? key).isSome ↔
        key ∈ pairs.map Prod.fst ∨ (d.get? key).isSome := by
    intro pairs
    induction pairs with
    | nil => simp
    | cons first rest ih =>
        intro d
        rw [List.foldl_cons, ih, get?_set, List.map_cons, List.mem_cons]
        by_cases hfirst : key = first.1 <;> simp [hfirst]
  rw [ofList, hfold]
  simp [empty, get?]

end Dict

end MomBot.Python
